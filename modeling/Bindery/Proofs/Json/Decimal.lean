import Bindery.Proofs.Json.Integer
import Bindery.Proofs.Number.Shortest

/-!
# Binary numbers are read back

A finite binary number that is written in front of a comma, a closing bracket or nothing is read
back (`readNumber_renderNumber`).

It is written as a decimal, with a point or with an exponent (`IsDecimal`).  The decimal has the
value of the shortest one that rounds to the number, though not always its digits: a whole number
has zeros up to its point and one behind it.
-/

namespace Bindery.Json

/-! ## Zeros -/

theorem digitsValue_append (front back : List Char) : digitsValue (front ++ back) =
    back.foldl (fun n c => n * 10 + (c.toNat - 48)) (digitsValue front) := by
  rw [digitsValue, List.foldl_append]
  rfl

theorem digitsValue_append_zeros (digits : List Char) (n : Nat) :
    digitsValue (digits ++ List.replicate n '0') = digitsValue digits * 10 ^ n := by
  induction n with
  | zero => simp
  | succ n ih =>
      rw [List.replicate_succ', ← List.append_assoc, digitsValue_append, ih, Nat.pow_succ,
        ← Nat.mul_assoc]
      rfl

theorem digitsValue_zeros_append (n : Nat) (digits : List Char) :
    digitsValue (List.replicate n '0' ++ digits) = digitsValue digits := by
  have hzeros := digitsValue_append_zeros [] n
  rw [List.nil_append] at hzeros
  rw [digitsValue_append, hzeros]
  change List.foldl _ (0 * 10 ^ n) _ = _
  rw [Nat.zero_mul]
  rfl

theorem isDigit_zeros (n : Nat) : ∀ c ∈ List.replicate n '0', c.isDigit = true := by
  intro c hc
  rw [List.eq_of_mem_replicate hc]
  decide

/-! ## Decimals -/

/-- The text is that of a decimal that is not an integer. -/
structure IsDecimal (text : List Char) (digits : Nat) (exponent : Int) : Prop where
  /-- It starts with a digit. -/
  starts : ∃ d ds, d.isDigit = true ∧ text = d :: ds
  /-- Its characters are visible. -/
  visible : ∀ c ∈ text, IsVisible c
  /-- It is read as the number nearest to it, whatever its sign is and whatever stops it. -/
  reads : ∀ negative rest, Stops rest → readNumber (signText negative ++ (text ++ rest)) =
    some (.float (nearestDecimal negative digits exponent), rest)

/-- A fraction as it is written: with a point in front of it, if there is one. -/
def pointed (fraction : List Char) : List Char := if fraction = [] then [] else '.' :: fraction

theorem pointed_of_ne {fraction : List Char} (h : fraction ≠ []) :
    pointed fraction = '.' :: fraction := if_neg h

theorem isVisible_pointed {fraction : List Char} (h : ∀ c ∈ fraction, c.isDigit = true) :
    ∀ c ∈ pointed fraction, IsVisible c := by
  unfold pointed
  split
  · simp
  · have hpoint : IsVisible '.' := by decide
    intro c hc
    rcases List.mem_cons.1 hc with rfl | hc
    · exact hpoint
    · exact isVisible_of_isDigit (h c hc)

theorem readFraction_pointed {fraction more : List Char}
    (hfraction : ∀ c ∈ fraction, c.isDigit = true) (hmore : EndsDigits more)
    (hpoint : ∀ after, more ≠ '.' :: after) :
    readFraction (pointed fraction ++ more) = (fraction, more) := by
  by_cases hne : fraction = []
  · subst hne
    exact readFraction_of_ne hpoint
  · have hempty : fraction.isEmpty = false := by simpa using hne
    rw [pointed_of_ne hne, List.cons_append, readFraction, spanDigits_append hfraction hmore]
    simp [hempty]

/-- An exponent is read with its sign. -/
theorem readExponent_cons {size rest : List Char} (hne : size ≠ [])
    (hsize : ∀ c ∈ size, c.isDigit = true) (hrest : Stops rest) (negative : Bool) :
    readExponent ('e' :: (if negative then '-' else '+') :: (size ++ rest)) =
      some (Parts.signed negative (digitsValue size), rest) := by
  have hempty : size.isEmpty = false := by simpa using hne
  have hspan := spanDigits_append hsize hrest.endsDigits
  cases negative <;> simp [readExponent, hspan, hempty]

theorem Stops.ne_point {rest : List Char} (h : Stops rest) : ∀ after, rest ≠ '.' :: after := by
  rintro after rfl
  have hstop := h '.' rfl
  revert hstop
  decide

theorem starts_append {whole more : List Char} (hne : whole ≠ [])
    (hwhole : ∀ c ∈ whole, c.isDigit = true) :
    ∃ d ds, d.isDigit = true ∧ whole ++ more = d :: ds := by
  obtain ⟨d, ds, rfl⟩ := List.exists_cons_of_ne_nil hne
  exact ⟨d, ds ++ more, hwhole d (.head _), rfl⟩

/-- A decimal with a fraction. -/
theorem isDecimal_point {whole fraction : List Char} (hne : whole ≠ [])
    (hwhole : ∀ c ∈ whole, c.isDigit = true) (hsome : fraction ≠ [])
    (hfraction : ∀ c ∈ fraction, c.isDigit = true) :
    IsDecimal (whole ++ pointed fraction) (digitsValue (whole ++ fraction)) (-fraction.length) where
  starts := starts_append hne hwhole
  visible := by
    intro c hc
    rcases List.mem_append.1 hc with hc | hc
    · exact isVisible_of_isDigit (hwhole c hc)
    · exact isVisible_pointed hfraction c hc
  reads := by
    intro negative rest hrest
    have hmore : EndsDigits (pointed fraction ++ rest) := by
      rw [pointed_of_ne hsome]
      exact endsDigits_cons (by decide) _
    have hempty : fraction.isEmpty = false := by simpa using hsome
    rw [List.append_assoc, readNumber_eq hne hwhole hmore, finishNumber,
      readFraction_pointed hfraction hrest.endsDigits hrest.ne_point]
    simp only [readExponent_of_stops hrest, hempty, Bool.false_eq_true, if_false]

/-- A decimal with an exponent. -/
theorem isDecimal_exponent {whole fraction size : List Char} (hne : whole ≠ [])
    (hwhole : ∀ c ∈ whole, c.isDigit = true) (hfraction : ∀ c ∈ fraction, c.isDigit = true)
    (hsome : size ≠ []) (hsize : ∀ c ∈ size, c.isDigit = true) (negative : Bool) :
    IsDecimal (whole ++ (pointed fraction ++ 'e' :: (if negative then '-' else '+') :: size))
      (digitsValue (whole ++ fraction))
      (Parts.signed negative (digitsValue size) - fraction.length) where
  starts := starts_append hne hwhole
  visible := by
    have hletter : IsVisible 'e' := by decide
    have hsign : IsVisible (if negative then '-' else '+') := by cases negative <;> decide
    intro c hc
    simp only [List.mem_append, List.mem_cons] at hc
    rcases hc with hc | hc | rfl | rfl | hc
    · exact isVisible_of_isDigit (hwhole c hc)
    · exact isVisible_pointed hfraction c hc
    · exact hletter
    · exact hsign
    · exact isVisible_of_isDigit (hsize c hc)
  reads := by
    intro sign rest hrest
    have hmore : EndsDigits (pointed fraction ++
        'e' :: (if negative then '-' else '+') :: (size ++ rest)) := by
      by_cases hnone : fraction = []
      · subst hnone
        exact endsDigits_cons (by decide) _
      · rw [pointed_of_ne hnone]
        exact endsDigits_cons (by decide) _
    have htext : whole ++ (pointed fraction ++ 'e' :: (if negative then '-' else '+') :: size) ++
        rest = whole ++ (pointed fraction ++
          'e' :: (if negative then '-' else '+') :: (size ++ rest)) := by
      simp
    rw [htext, readNumber_eq hne hwhole hmore, finishNumber,
      readFraction_pointed hfraction (endsDigits_cons (by decide) _) (by simp)]
    simp only [readExponent_cons hsome hsize hrest]

/-! ## Written decimals -/

/-- The text is that of a decimal with the value of another one. -/
def Shows (text : List Char) (d : Decimal) : Prop :=
  ∃ digits exponent, IsDecimal text digits exponent ∧
    (digits * 10 ^ exponent : ℚ) = d.digits * 10 ^ d.exponent

/-- With a point the exponent is that of the last digit of the fraction. -/
theorem shows_point {whole fraction : List Char} {d : Decimal} (hne : whole ≠ [])
    (hwhole : ∀ c ∈ whole, c.isDigit = true) (hsome : fraction ≠ [])
    (hfraction : ∀ c ∈ fraction, c.isDigit = true)
    (hdigits : digitsValue (whole ++ fraction) = d.digits)
    (hexponent : -fraction.length = d.exponent) :
    Shows (whole ++ pointed fraction) d :=
  ⟨_, _, isDecimal_point hne hwhole hsome hfraction, by rw [hdigits, hexponent]⟩

section

variable {d : Decimal} {digits : List Char}

/-- All digits are behind the point, with zeros in front of them. -/
theorem shows_small (hne : digits ≠ []) (hdigits : ∀ c ∈ digits, c.isDigit = true)
    (hvalue : digitsValue digits = d.digits) {n : Nat} (hn : digits.length + d.exponent = -n) :
    Shows ("0." ++ String.ofList (List.replicate n '0' ++ digits)).toList d := by
  have hsome : List.replicate n '0' ++ digits ≠ [] := by simp [hne]
  have hfraction : ∀ c ∈ List.replicate n '0' ++ digits, c.isDigit = true := fun c hc =>
    (List.mem_append.1 hc).elim (isDigit_zeros n c) (hdigits c)
  have hread : digitsValue (['0'] ++ (List.replicate n '0' ++ digits)) = d.digits := by
    rw [← hvalue, ← digitsValue_zeros_append (n + 1) digits]
    rfl
  have htext : ("0." ++ String.ofList (List.replicate n '0' ++ digits)).toList =
      ['0'] ++ pointed (List.replicate n '0' ++ digits) := by
    have hzero : ("0." : String).toList = ['0', '.'] := rfl
    rw [String.toList_append, hzero, String.toList_ofList, pointed_of_ne hsome]
    rfl
  rw [htext]
  refine shows_point (by simp) (isDigit_zeros 1) hsome hfraction hread ?_
  rw [List.length_append, List.length_replicate]
  omega

/-- All digits are in front of the point, with zeros behind them. -/
theorem shows_whole (hne : digits ≠ []) (hdigits : ∀ c ∈ digits, c.isDigit = true)
    (hvalue : digitsValue digits = d.digits) {n : Nat} (hn : d.exponent = n) :
    Shows (String.ofList (digits ++ List.replicate n '0') ++ ".0").toList d := by
  have hwhole : ∀ c ∈ digits ++ List.replicate n '0', c.isDigit = true := fun c hc =>
    (List.mem_append.1 hc).elim (hdigits c) (isDigit_zeros n c)
  have hread : digitsValue (digits ++ List.replicate n '0' ++ ['0']) = d.digits * 10 ^ (n + 1) := by
    rw [List.append_assoc, ← List.replicate_succ', digitsValue_append_zeros, hvalue]
  have htext : (String.ofList (digits ++ List.replicate n '0') ++ ".0").toList =
      digits ++ List.replicate n '0' ++ pointed ['0'] := by
    rw [String.toList_append, String.toList_ofList]
    rfl
  rw [htext]
  refine ⟨_, _, isDecimal_point (by simp [hne]) hwhole (by simp) (isDigit_zeros 1), ?_⟩
  rw [hread, hn, zpow_natCast]
  push_cast
  rw [List.length_singleton, zpow_neg, pow_succ]
  field_simp
  norm_num

/-- The point is between the digits. -/
theorem shows_between (hdigits : ∀ c ∈ digits, c.isDigit = true)
    (hvalue : digitsValue digits = d.digits) {n : Nat} (hpos : 0 < n) (hn : n < digits.length)
    (hexponent : digits.length + d.exponent = n) :
    Shows (String.ofList (digits.take n) ++ "." ++ String.ofList (digits.drop n)).toList d := by
  have hfront : digits.take n ≠ [] := by
    rw [← List.length_pos_iff_ne_nil, List.length_take]
    omega
  have hback : digits.drop n ≠ [] := by
    rw [← List.length_pos_iff_ne_nil, List.length_drop]
    omega
  have htext : (String.ofList (digits.take n) ++ "." ++ String.ofList (digits.drop n)).toList =
      digits.take n ++ pointed (digits.drop n) := by
    simp [pointed_of_ne hback]
  rw [htext]
  refine shows_point hfront (fun c hc => hdigits c (List.mem_of_mem_take hc)) hback
    (fun c hc => hdigits c (List.mem_of_mem_drop hc)) ?_ ?_
  · rw [List.take_append_drop, hvalue]
  · rw [List.length_drop]
    omega

end

/-- The digits of a decimal. -/
theorem digits_spec (n : Nat) : ∃ digits : List Char, (toString n).toList = digits ∧ digits ≠ [] ∧
    (∀ c ∈ digits, c.isDigit = true) ∧ digitsValue digits = n :=
  ⟨Nat.toDigits 10 n, Nat.toList_repr, Nat.toDigits_ne_nil, fun _ hc =>
    Nat.isDigit_of_mem_toDigits (by decide) (by decide) hc, digitsValue_toDigits n⟩

/-- The size of an exponent has at least two digits. -/
theorem size_spec (n : Nat) : ∃ size : List Char,
    (if (toString n).length < 2 then "0" ++ toString n else toString n).toList = size ∧ size ≠ [] ∧
      (∀ c ∈ size, c.isDigit = true) ∧ digitsValue size = n := by
  obtain ⟨digits, htext, hne, hdigits, hvalue⟩ := digits_spec n
  split
  · refine ⟨'0' :: digits, ?_, List.cons_ne_nil _ _, ?_, ?_⟩
    · rw [String.toList_append, htext]
      rfl
    · simpa using hdigits
    · rw [← hvalue, ← digitsValue_zeros_append 1 digits]
      rfl
  · exact ⟨digits, htext, hne, hdigits, hvalue⟩

/-- The digits behind the first one, as they are written. -/
theorem fractionTail_eq {digits : List Char} (hne : digits ≠ []) :
    (if digits.length == 1 then "" else "." ++ String.ofList (digits.drop 1)).toList =
      pointed (digits.drop 1) := by
  have hone : digits.length = 1 ↔ digits.drop 1 = [] := by
    have := List.length_pos_iff_ne_nil.2 hne
    rw [List.drop_eq_nil_iff]
    omega
  have hpoint : ("." : String).toList = ['.'] := rfl
  simp only [beq_iff_eq, hone]
  split
  · next hnone =>
      rw [hnone]
      rfl
  · next hmore =>
      rw [String.toList_append, hpoint, String.toList_ofList, pointed_of_ne hmore]
      rfl

/-- The first digit, the others as its fraction, and an exponent. -/
theorem shows_scientific {d : Decimal} {digits : List Char} (hne : digits ≠ [])
    (hdigits : ∀ c ∈ digits, c.isDigit = true) (hvalue : digitsValue digits = d.digits)
    {exponent : Int} (hexponent : exponent = digits.length + d.exponent - 1) :
    Shows (String.ofList (digits.take 1) ++
      (if digits.length == 1 then "" else "." ++ String.ofList (digits.drop 1)) ++ "e" ++
      (if exponent < 0 then "-" else "+") ++
      (if (toString exponent.natAbs).length < 2 then "0" ++ toString exponent.natAbs
        else toString exponent.natAbs)).toList d := by
  obtain ⟨size, hsize, hsome, hsizes, hread⟩ := size_spec exponent.natAbs
  have hfront : digits.take 1 ≠ [] := by
    rw [← List.length_pos_iff_ne_nil, List.length_take]
    have := List.length_pos_iff_ne_nil.2 hne
    omega
  have hsign : (if exponent < 0 then "-" else "+").toList =
      [if decide (exponent < 0) then '-' else '+'] := by
    by_cases h : exponent < 0 <;> simp [h]
  have hletter : ("e" : String).toList = ['e'] := rfl
  have hback : ∀ c ∈ digits.drop 1, c.isDigit = true := fun c hc =>
    hdigits c (List.mem_of_mem_drop hc)
  have hdecimal := isDecimal_exponent hfront (fun c hc => hdigits c (List.mem_of_mem_take hc))
    hback hsome hsizes (decide (exponent < 0))
  have hlast : exponent - (digits.drop 1).length = d.exponent := by
    have := List.length_pos_iff_ne_nil.2 hne
    rw [List.length_drop]
    omega
  rw [List.take_append_drop, hvalue, hread, signed_natAbs, hlast] at hdecimal
  simp only [String.toList_append, fractionTail_eq hne, hsize, hsign, hletter, String.toList_ofList,
    List.append_assoc, List.singleton_append]
  exact ⟨_, _, hdecimal, rfl⟩

/-- A written decimal is read with its value. -/
theorem shows_renderDecimal (d : Decimal) : Shows (Parts.renderDecimal d).toList d := by
  obtain ⟨digits, htext, hne, hdigits, hvalue⟩ := digits_spec d.digits
  unfold Parts.renderDecimal
  simp only [htext]
  split
  · next hpoint =>
      split
      · next p hp =>
          rw [Int.ofNat_eq_natCast] at hp
          split
          · next hzero =>
              rw [beq_iff_eq] at hzero
              exact shows_small hne hdigits hvalue (n := 0) (by omega)
          · next hzero =>
              rw [beq_iff_eq] at hzero
              split
              · next hlong => exact shows_whole hne hdigits hvalue (by omega)
              · exact shows_between hdigits hvalue (by omega) (by omega) (by omega)
      · next p hp => exact shows_small hne hdigits hvalue (by omega)
  · exact shows_scientific hne hdigits hvalue rfl

/-! ## Finite numbers -/

/-- A finite binary number is written with its sign as a decimal that it is nearest to. -/
theorem renderNumber_float {x : Float} {negative : Bool} {m : Nat} {e : Int}
    (h : Parts.ofFloat x = .finite negative m e) : ∃ text digits exponent,
      (renderNumber (.float x)).toList = signText negative ++ text ∧
        IsDecimal text digits exponent ∧ nearestDecimal negative digits exponent = x := by
  have hrender : (renderNumber (.float x)).toList = signText negative ++
      (if m == 0 then "0.0" else Parts.renderDecimal (Parts.decimal m e)).toList := by
    rw [renderNumber, h]
    change ((if negative then "-" else "") ++ _ : String).toList = _
    rw [String.toList_append]
    cases negative <;> rfl
  by_cases hm : m = 0
  · subst hm
    have hzero : IsDecimal "0.0".toList 0 (-1) :=
      isDecimal_point (List.cons_ne_nil _ _) (isDigit_zeros 1) (List.cons_ne_nil _ _)
        (isDigit_zeros 1)
    exact ⟨_, _, _, hrender, hzero, Parts.nearestDecimal_of_zero h _⟩
  · obtain ⟨digits, exponent, hdecimal, hvalue⟩ := shows_renderDecimal (Parts.decimal m e)
    rw [if_neg (by simpa using hm)] at hrender
    exact ⟨_, _, _, hrender, hdecimal, Parts.nearestDecimal_of_eq h hm hvalue⟩

end Bindery.Json

namespace Bindery

/-- The number is an integer or a finite binary number. -/
def Number.IsFinite : Number → Prop
  | .int _ => True
  | .float x => ∃ negative m e, Parts.ofFloat x = .finite negative m e

/-- A number without a fraction is finite. -/
theorem Number.isFinite_of_isWhole {n : Number} (h : n.isWhole = true) : n.IsFinite := by
  cases n with
  | int n => trivial
  | float x =>
      cases hparts : Parts.ofFloat x with
      | finite negative m e => exact ⟨negative, m, e, hparts⟩
      | infinite | nan =>
          rw [Number.isWhole, hparts] at h
          cases h

namespace Json

variable {n : Number}

/-- A finite number starts with a digit, or with its sign and a digit. -/
theorem exists_digit (h : n.IsFinite) : ∃ d ds, d.isDigit = true ∧
    ((renderNumber n).toList = d :: ds ∨ (renderNumber n).toList = '-' :: d :: ds) := by
  have hsign (negative : Bool) (d : Char) (ds : List Char) :
      signText negative ++ d :: ds = d :: ds ∨ signText negative ++ d :: ds = '-' :: d :: ds := by
    cases negative
    · exact .inl rfl
    · exact .inr rfl
  cases n with
  | int n =>
      obtain ⟨d, ds, hdigits⟩ :=
        List.exists_cons_of_ne_nil (Nat.toDigits_ne_nil : Nat.toDigits 10 n.natAbs ≠ [])
      rw [renderNumber_int, hdigits]
      exact ⟨d, ds, Nat.isDigit_of_mem_toDigits (b := 10) (by decide) (by decide)
        (hdigits ▸ List.mem_cons_self), hsign _ d ds⟩
  | float x =>
      obtain ⟨negative, m, e, hx⟩ := h
      obtain ⟨text, _, _, htext, hdecimal, -⟩ := renderNumber_float hx
      obtain ⟨d, ds, hd, rfl⟩ := hdecimal.starts
      rw [htext]
      exact ⟨d, ds, hd, hsign _ d ds⟩

/-- A finite number is read back. -/
theorem readNumber_renderNumber (h : n.IsFinite) {rest : List Char} (hrest : Stops rest) :
    readNumber ((renderNumber n).toList ++ rest) = some (n, rest) := by
  cases n with
  | int n => exact readNumber_int n hrest
  | float x =>
      obtain ⟨negative, m, e, hx⟩ := h
      obtain ⟨text, digits, exponent, htext, hdecimal, hnearest⟩ := renderNumber_float hx
      rw [htext, List.append_assoc, hdecimal.reads negative rest hrest, hnearest]

/-- A finite number is written with visible characters. -/
theorem isVisible_renderNumber (h : n.IsFinite) : ∀ c ∈ (renderNumber n).toList, IsVisible c := by
  cases n with
  | int n => exact isVisible_renderNumber_int n
  | float x =>
      obtain ⟨negative, m, e, hx⟩ := h
      obtain ⟨text, _, _, htext, hdecimal, -⟩ := renderNumber_float hx
      intro c hc
      rw [htext, List.mem_append] at hc
      exact hc.elim (isVisible_signText negative c) (hdecimal.visible c)

end Json
end Bindery
