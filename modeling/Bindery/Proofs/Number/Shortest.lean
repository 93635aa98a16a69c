import Mathlib
import Bindery.Proofs.Number.Round

/-!
# The shortest decimal is read back

The decimal that a binary number is written as rounds to it (`Parts.decimal_rounds`), so the
number is read back.

The search for it tests grids of multiples of powers of ten.  Each point that it takes is in the
interval of the number.  On a grid that is finer than the interval the point just above the
number is in it, and 24 grids are enough to come to such a grid.
-/

namespace Bindery.Parts

/-! ## Points of a grid -/

/-- The ratio of the quarter of `2 ^ e` and `10 ^ k`, as it is scaled. -/
def unit (e k : Int) : Nat × Nat :=
  let (top, bottom) := scale 1 1 2 (e - 2)
  scale top bottom 10 (-k)

/-- The point of the grid of `10 ^ k` lies in the interval of `m * 2 ^ e`. -/
def isInside (m : Nat) (e k : Int) (n : Nat) : Bool :=
  let (low, high, closed) := interval m e
  let (top, bottom) := unit e k
  if closed then low * top ≤ n * bottom && n * bottom ≤ high * top
  else low * top < n * bottom && n * bottom < high * top

/-- The point just below the number, in front of the one just above it. -/
def below (m : Nat) (e k : Int) : Nat := 4 * m * (unit e k).1 / (unit e k).2

/-- The choice between a point and the next one: of two the nearer one. -/
def pick (n : Nat) (nearer : Bool) : (lower upper : Bool) → Option Nat
  | true, true => if nearer then some n else some (n + 1)
  | true, false => some n
  | false, true => some (n + 1)
  | false, false => none

/-- A grid gives the point just below the number or the one just above it. -/
theorem gridPoint?_eq (m : Nat) (e k : Int) : ∃ nearer, gridPoint? m e k =
    pick (below m e k) nearer (isInside m e k (below m e k) && below m e k != 0)
      (isInside m e k (below m e k + 1)) := ⟨_, rfl⟩

/-- A grid gives a point in the interval, and none only if the point just above the number is not
in it. -/
theorem gridPoint?_cases (m : Nat) (e k : Int) :
    (∃ n, gridPoint? m e k = some n ∧ n ≠ 0 ∧ isInside m e k n = true) ∨
      (gridPoint? m e k = none ∧ isInside m e k (below m e k + 1) = false) := by
  obtain ⟨nearer, hpick⟩ := gridPoint?_eq m e k
  rw [hpick]
  generalize below m e k = n
  cases hbelow : isInside m e k n && n != 0 <;> cases habove : isInside m e k (n + 1)
  · exact .inr ⟨rfl, rfl⟩
  · exact .inl ⟨n + 1, rfl, n.succ_ne_zero, habove⟩
  · rw [Bool.and_eq_true, bne_iff_ne] at hbelow
    exact .inl ⟨n, rfl, hbelow.2, hbelow.1⟩
  · rw [Bool.and_eq_true, bne_iff_ne] at hbelow
    cases nearer
    · exact .inl ⟨n + 1, rfl, n.succ_ne_zero, habove⟩
    · exact .inl ⟨n, rfl, hbelow.2, hbelow.1⟩

/-! ## Points that round to the number -/

theorem scale_eq (top bottom base : Nat) (e : Int) :
    ((scale top bottom base e).1 / (scale top bottom base e).2 : ℚ) =
      top / bottom * (base : ℚ) ^ e := by
  cases e with
  | ofNat e =>
      rw [Int.ofNat_eq_natCast, zpow_natCast, div_mul_eq_mul_div]
      simp [scale]
  | negSucc e =>
      rw [zpow_negSucc, ← div_eq_mul_inv, div_div]
      simp [scale]

theorem scale_pos {top bottom base : Nat} (hbase : 0 < base) (htop : 0 < top)
    (hbottom : 0 < bottom) (e : Int) :
    0 < (scale top bottom base e).1 ∧ 0 < (scale top bottom base e).2 := by
  cases e with
  | ofNat e => exact ⟨Nat.mul_pos htop (Nat.pow_pos hbase), hbottom⟩
  | negSucc e => exact ⟨htop, Nat.mul_pos hbottom (Nat.pow_pos hbase)⟩

theorem unit_pos (e k : Int) : 0 < (unit e k).1 ∧ 0 < (unit e k).2 := by
  obtain ⟨htop, hbottom⟩ := scale_pos two_pos one_pos one_pos (e - 2)
  exact scale_pos (by decide) htop hbottom (-k)

/-- The scaled ratio is that of a quarter of `2 ^ e` to `10 ^ k`. -/
theorem unit_eq (e k : Int) : ((unit e k).1 / (unit e k).2 : ℚ) = 2 ^ e / 4 / 10 ^ k := by
  have hunit : ((unit e k).1 / (unit e k).2 : ℚ) =
      (scale 1 1 2 (e - 2)).1 / (scale 1 1 2 (e - 2)).2 * (10 : Nat) ^ (-k) := scale_eq _ _ _ _
  rw [hunit, scale_eq, zpow_neg, Nat.cast_one, div_one, one_mul, Nat.cast_ofNat,
    zpow_sub₀ two_ne_zero, div_eq_mul_inv _ ((10 : ℚ) ^ k)]
  norm_num

/-- A point of the grid in quarters of `2 ^ e`. -/
theorem quarters_eq (e k : Int) (n : Nat) :
    (4 * (n * 10 ^ k / 2 ^ e) : ℚ) = n * (unit e k).2 / (unit e k).1 := by
  rw [mul_div_assoc (n : ℚ) ((unit e k).2 : ℚ), ← inv_div ((unit e k).1 : ℚ), unit_eq]
  field_simp

/-- The low end of the interval, in quarters. -/
theorem interval_fst (m : Nat) (e : Int) : (interval m e).1 =
    if m = 2 ^ 52 ∧ e ≠ -1074 then 4 * m - 1 else 4 * m - 2 := by
  simp [interval]

/-- A point is in the interval if its quarters are between the ends. -/
theorem isInside_iff {m : Nat} {e k : Int} {n : Nat} : isInside m e k n = true ↔
    if m % 2 = 0 then
      ((interval m e).1 : ℚ) ≤ 4 * (n * 10 ^ k / 2 ^ e) ∧ 4 * (n * 10 ^ k / 2 ^ e) ≤ (4 * m + 2 : ℚ)
    else
      ((interval m e).1 : ℚ) < 4 * (n * 10 ^ k / 2 ^ e) ∧
        4 * (n * 10 ^ k / 2 ^ e) < (4 * m + 2 : ℚ) := by
  obtain ⟨htop, hbottom⟩ := unit_pos e k
  have hpos : (0 : ℚ) < (unit e k).1 := Nat.cast_pos.2 htop
  have hinside : isInside m e k n =
      if m % 2 == 0 then
        (interval m e).1 * (unit e k).1 ≤ n * (unit e k).2 &&
          n * (unit e k).2 ≤ (4 * m + 2) * (unit e k).1
      else
        (interval m e).1 * (unit e k).1 < n * (unit e k).2 &&
          n * (unit e k).2 < (4 * m + 2) * (unit e k).1 := rfl
  rw [quarters_eq, le_div_iff₀ hpos, div_le_iff₀ hpos, lt_div_iff₀ hpos, div_lt_iff₀ hpos, hinside]
  by_cases hclosed : m % 2 = 0
  · rw [if_pos hclosed, if_pos (beq_iff_eq.2 hclosed), Bool.and_eq_true, decide_eq_true_eq,
      decide_eq_true_eq]
    exact_mod_cast Iff.rfl
  · rw [if_neg hclosed, if_neg (mt beq_iff_eq.1 hclosed), Bool.and_eq_true, decide_eq_true_eq,
      decide_eq_true_eq]
    exact_mod_cast Iff.rfl

/-- The low end is at most half a significand below the number. -/
theorem le_interval_fst {m : Nat} (hm : 0 < m) (e : Int) :
    (4 * m - 2 : ℚ) ≤ (interval m e).1 ∧ ((interval m e).1 : ℚ) < 4 * m := by
  have hbounds : 4 * m ≤ (interval m e).1 + 2 ∧ (interval m e).1 < 4 * m := by
    rw [interval_fst]
    split <;> omega
  constructor
  · rw [sub_le_iff_le_add]
    exact_mod_cast hbounds.1
  · exact_mod_cast hbounds.2

/-- A point in the interval of a number rounds to it. -/
theorem rounds_of_isInside {m : Nat} {e k : Int} {n : Nat} (hm : 0 < m)
    (h : isInside m e k n = true) : Rounds m e (n * 10 ^ k) := by
  rw [isInside_iff] at h
  have hlow := (le_interval_fst hm e).1
  have hnarrow : m = 2 ^ 52 → e ≠ -1074 → ((interval m e).1 : ℚ) = 4 * m - 1 := by
    intro hm he
    rw [interval_fst, if_pos ⟨hm, he⟩, Nat.cast_sub (by omega)]
    norm_num
  split at h
  · next hclosed =>
      refine ⟨⟨by linarith, by linarith, fun _ => hclosed⟩, fun hm he => ?_⟩
      linarith [hnarrow hm he]
  · refine ⟨⟨by linarith, by linarith, fun htie => ?_⟩, fun hm he => ?_⟩
    · rcases htie with htie | htie <;> linarith
    · linarith [hnarrow hm he]

/-- On a grid that is fine enough the point just above the number rounds to it. -/
theorem isInside_above {m : Nat} {e k : Int} (hm : 0 < m) (hk : (10 : ℚ) ^ k < 2 ^ (e - 1)) :
    isInside m e k (below m e k + 1) = true := by
  obtain ⟨htop, hbottom⟩ := unit_pos e k
  have hpos : (0 : ℚ) < (unit e k).1 := Nat.cast_pos.2 htop
  have hlow : (4 * m : ℚ) < 4 * ((below m e k + 1 : Nat) * 10 ^ k / 2 ^ e) := by
    have hlt : 4 * m * (unit e k).1 < (below m e k + 1) * (unit e k).2 := by
      rw [Nat.mul_comm (below m e k + 1)]
      exact Nat.lt_mul_div_succ _ hbottom
    rw [quarters_eq, lt_div_iff₀ hpos]
    exact_mod_cast hlt
  have hhigh : (4 * ((below m e k + 1 : Nat) * 10 ^ k / 2 ^ e) : ℚ) < 4 * m + 2 := by
    have hle : below m e k * (unit e k).2 ≤ 4 * m * (unit e k).1 := Nat.div_mul_le_self _ _
    have hstep : (4 * (below m e k * 10 ^ k / 2 ^ e) : ℚ) ≤ 4 * m := by
      rw [quarters_eq, div_le_iff₀ hpos]
      exact_mod_cast hle
    have hunit : (10 ^ k / 2 ^ e : ℚ) < 1 / 2 := by
      rw [div_lt_iff₀ (zpow_pos two_pos e), one_div, mul_comm, ← zpow_sub_one₀ two_ne_zero]
      exact hk
    push_cast
    rw [mul_div_assoc] at hstep ⊢
    linarith
  have hinterval := (le_interval_fst hm e).2
  rw [isInside_iff]
  split
  · exact ⟨by linarith, hhigh.le⟩
  · exact ⟨by linarith, hhigh⟩

/-! ## The search -/

/-- The search gives a point in the interval if it comes to a grid that is fine enough. -/
theorem search_spec {m : Nat} {e : Int} {fuel : Nat} {k : Int} {steps : Nat} (hsteps : steps < fuel)
    (h : isInside m e (k - steps) (below m e (k - steps) + 1) = true) :
    ∃ d, search m e fuel k = some d ∧ d.digits ≠ 0 ∧ isInside m e d.exponent d.digits = true := by
  induction fuel generalizing k steps with
  | zero => exact absurd hsteps (Nat.not_lt_zero _)
  | succ fuel ih =>
      rw [search]
      obtain ⟨n, hgrid, hn, hinside⟩ | ⟨hgrid, hnone⟩ := gridPoint?_cases m e k
      · rw [hgrid]
        exact ⟨⟨n, k⟩, rfl, hn, hinside⟩
      · rw [hgrid]
        cases steps with
        | zero =>
            rw [Nat.cast_zero, sub_zero, hnone] at h
            cases h
        | succ steps =>
            refine ih (Nat.lt_of_succ_lt_succ hsteps) ?_
            rwa [sub_sub, add_comm 1, ← Nat.cast_succ]

/-! ## How fine the grids are -/

/-- `10 ^ 3` is below `2 ^ 10`, and so close that powers of ten keep below powers of two. -/
theorem ten_pow_le {p i : Nat} (hi : i ≤ 1100) (h : 100000 * p ≤ 30103 * i) :
    10 ^ p ≤ 2 ^ (i + 4) := by
  have hcube : (10 ^ p) ^ 3 ≤ (2 ^ (i + 4)) ^ 3 :=
    calc (10 ^ p) ^ 3 = (10 ^ 3) ^ p := Nat.pow_right_comm 10 p 3
      _ ≤ (2 ^ 10) ^ p := Nat.pow_le_pow_left (by decide) p
      _ = 2 ^ (10 * p) := (Nat.pow_mul 2 10 p).symm
      _ ≤ 2 ^ ((i + 4) * 3) := Nat.pow_le_pow_right two_pos (by omega)
      _ = (2 ^ (i + 4)) ^ 3 := Nat.pow_mul 2 (i + 4) 3
  exact (Nat.pow_le_pow_iff_left (by decide)).1 hcube

/-- `2 ^ 23` is below `10 ^ 7`, and so close that powers of two keep below powers of ten. -/
theorem two_pow_le {p i : Nat} (hi : i ≤ 1100) (h : 30103 * i ≤ 100000 * p) :
    2 ^ i ≤ 10 ^ (p + 4) := by
  have hpower : (2 ^ i) ^ 23 ≤ (10 ^ (p + 4)) ^ 23 :=
    calc (2 ^ i) ^ 23 = (2 ^ 23) ^ i := Nat.pow_right_comm 2 i 23
      _ ≤ (10 ^ 7) ^ i := Nat.pow_le_pow_left (by decide) i
      _ = 10 ^ (7 * i) := (Nat.pow_mul 10 7 i).symm
      _ ≤ 10 ^ ((p + 4) * 23) := Nat.pow_le_pow_right (by decide) (by omega)
      _ = (10 ^ (p + 4)) ^ 23 := Nat.pow_mul 10 (p + 4) 23
  exact (Nat.pow_le_pow_iff_left (by decide)).1 hpower

/-- A power of ten is at most four digits above a power of two, if its exponent is no more than
the rounded logarithm says. -/
theorem ten_zpow_le {a i : Int} (hlow : -1100 ≤ i) (hhigh : i ≤ 1100)
    (h : 100000 * a ≤ 30103 * i) : (10 : ℚ) ^ a ≤ 2 ^ i * 10 ^ 4 := by
  cases i with
  | ofNat i =>
      rw [Int.ofNat_eq_natCast] at h hhigh ⊢
      have hpow : (10 ^ a.toNat : ℚ) ≤ 2 ^ (i + 4) := by
        exact_mod_cast ten_pow_le (p := a.toNat) (i := i) (by omega) (by omega)
      calc (10 : ℚ) ^ a ≤ 10 ^ (a.toNat : Int) := zpow_le_zpow_right₀ (by norm_num) (by omega)
        _ = 10 ^ a.toNat := zpow_natCast _ _
        _ ≤ 2 ^ (i + 4) := hpow
        _ = 2 ^ i * 2 ^ 4 := pow_add 2 i 4
        _ ≤ 2 ^ (i : Int) * 10 ^ 4 := by
          rw [zpow_natCast]
          exact mul_le_mul_of_nonneg_left (by norm_num) (by positivity)
  | negSucc i =>
      obtain ⟨p, rfl⟩ : ∃ p : Nat, a = -(p : Int) := ⟨(-a).toNat, by omega⟩
      have hpow : (2 ^ (i + 1) : ℚ) ≤ 10 ^ (p + 4) := by
        exact_mod_cast two_pow_le (p := p) (i := i + 1) (by omega) (by omega)
      rw [zpow_neg, zpow_natCast, zpow_negSucc, ← one_div, ← div_eq_inv_mul,
        div_le_div_iff₀ (by positivity) (by positivity), one_mul, ← pow_add, add_comm 4]
      exact hpow

/-- The last grid of the search is fine enough. -/
theorem last_grid {m : Nat} {e : Int} (hc : IsCanonical m e) (hm : 0 < m) :
    (10 : ℚ) ^ ((m.log2 + e + 1) * 30103 / 100000 + 1 - (23 : Nat)) < 2 ^ (e - 1) := by
  have hlog : m.log2 < 53 := (Nat.log2_lt hm.ne').2 hc.short
  have hleast := hc.least
  have hmost := hc.most
  have hten : (10 : ℚ) ^ ((m.log2 + e + 1) * 30103 / 100000) ≤ 2 ^ (m.log2 + e + 1) * 10 ^ 4 :=
    ten_zpow_le (by omega) (by omega) (by omega)
  have hpow : (2 : ℚ) ^ (m.log2 + e + 1) ≤ 2 ^ (e - 1) * 2 ^ 54 := by
    rw [← zpow_natCast, ← zpow_add₀ two_ne_zero]
    exact zpow_le_zpow_right₀ one_le_two (by omega)
  have hpos : (0 : ℚ) < 2 ^ (e - 1) := zpow_pos two_pos _
  have hsplit : (10 : ℚ) ^ ((m.log2 + e + 1) * 30103 / 100000 + 1 - (23 : Nat)) =
      10 ^ ((m.log2 + e + 1) * 30103 / 100000) / 10 ^ 22 := by
    rw [← zpow_natCast, ← zpow_sub₀ (by norm_num)]
    congr 1
    omega
  rw [hsplit, div_lt_iff₀ (by positivity)]
  calc (10 : ℚ) ^ ((m.log2 + e + 1) * 30103 / 100000) ≤ 2 ^ (m.log2 + e + 1) * 10 ^ 4 := hten
    _ ≤ 2 ^ (e - 1) * 2 ^ 54 * 10 ^ 4 := mul_le_mul_of_nonneg_right hpow (by positivity)
    _ < 2 ^ (e - 1) * 10 ^ 22 := by
      rw [mul_assoc]
      exact mul_lt_mul_of_pos_left (by norm_num) hpos

/-- The decimal that a positive number is written as rounds to it. -/
theorem decimal_rounds {m : Nat} {e : Int} (hc : IsCanonical m e) (hm : 0 < m) :
    (decimal m e).digits ≠ 0 ∧
      Rounds m e ((decimal m e).digits * 10 ^ (decimal m e).exponent) := by
  obtain ⟨d, hsearch, hd, hinside⟩ := search_spec (by decide : 23 < 24)
    (isInside_above hm (last_grid hc hm))
  have hdecimal : decimal m e = d := by
    rw [decimal, if_neg (by simp [hm.ne'])]
    dsimp only
    rw [hsearch, Option.getD_some]
  rw [hdecimal]
  exact ⟨hd, rounds_of_isInside hm hinside⟩

/-! ## Binary numbers -/

/-- A finite number has the bits of its parts. -/
theorem ofBits_bitsOf {x : Float} {negative : Bool} {m : Nat} {e : Int}
    (h : ofFloat x = .finite negative m e) :
    Float.ofBits (UInt64.ofNat (bitsOf negative m e)) = x := by
  rw [← (isCanonical_of_ofFloat h).2, UInt64.ofNat_toNat, Float.ofBits_toBits]

/-- A decimal with the value of the one that a binary number is written as is read as the number. -/
theorem nearestDecimal_of_eq {x : Float} {negative : Bool} {m : Nat} {e : Int}
    (h : ofFloat x = .finite negative m e) (hm : m ≠ 0) {digits : Nat} {k : Int}
    (hvalue : (digits * 10 ^ k : ℚ) = (decimal m e).digits * 10 ^ (decimal m e).exponent) :
    nearestDecimal negative digits k = x := by
  obtain ⟨hc, -⟩ := isCanonical_of_ofFloat h
  obtain ⟨hne, hrounds⟩ := decimal_rounds hc (Nat.pos_of_ne_zero hm)
  have hdigits : digits ≠ 0 := by
    rintro rfl
    have hten : (10 : ℚ) ^ (decimal m e).exponent ≠ 0 := zpow_ne_zero _ (by norm_num)
    rw [Nat.cast_zero, zero_mul, eq_comm, mul_eq_zero] at hvalue
    exact hvalue.elim (Nat.cast_ne_zero.2 hne) hten
  rw [← hvalue] at hrounds
  rw [hrounds.nearestDecimal_eq hc (Nat.pos_of_ne_zero hm) (Nat.pos_of_ne_zero hdigits),
    ofBits_bitsOf h]

/-- A zero is read as the zero with its sign. -/
theorem nearestDecimal_of_zero {x : Float} {negative : Bool} {e : Int}
    (h : ofFloat x = .finite negative 0 e) (k : Int) : nearestDecimal negative 0 k = x := by
  obtain ⟨hc, -⟩ := isCanonical_of_ofFloat h
  obtain rfl : e = -1074 := hc.normal.resolve_left (by decide)
  rw [nearestDecimal_zero, ofBits_bitsOf h]

end Bindery.Parts
