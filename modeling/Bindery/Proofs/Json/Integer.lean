import Bindery.Json.Printer
import Bindery.Json.Reader
import Bindery.Proofs.Json.Text
import Mathlib.Data.List.TakeWhile

/-!
# Integers are read back

An integer of any size that is written in front of a comma, a closing bracket or nothing is
read back (`readNumber_int`).
-/

namespace Bindery.Json

/-- What may follow a value: nothing, or a comma or closing bracket. -/
def Stops (rest : List Char) : Prop := ∀ c ∈ rest.head?, c = ',' ∨ c = ']' ∨ c = '\x7d'

theorem stops_nil : Stops [] := by simp [Stops]

theorem stops_cons {c : Char} (h : c = ',' ∨ c = ']' ∨ c = '\x7d') (rest : List Char) :
    Stops (c :: rest) := by
  simpa [Stops] using h

/-! ## Digits -/

theorem digitsValue_toDigits (n : Nat) : digitsValue (Nat.toDigits 10 n) = n := by
  have hvalue : Nat.ofDigitChars 10 (Nat.toDigits 10 n) 0 = n := Nat.ofDigitChars_ten_toDigits
  rw [Nat.ofDigitChars_eq_foldl] at hvalue
  simp only [Nat.mul_comm 10] at hvalue
  exact hvalue

/-- The text does not go on with a digit. -/
def EndsDigits (rest : List Char) : Prop := ∀ c ∈ rest.head?, c.isDigit = false

theorem Stops.endsDigits {rest : List Char} (h : Stops rest) : EndsDigits rest := by
  intro c hc
  rcases h c hc with rfl | rfl | rfl <;> decide

theorem endsDigits_cons {c : Char} (h : c.isDigit = false) (rest : List Char) :
    EndsDigits (c :: rest) := by
  simpa [EndsDigits] using h

theorem spanDigits_append {digits rest : List Char} (hdigits : ∀ c ∈ digits, c.isDigit = true)
    (hrest : EndsDigits rest) : spanDigits (digits ++ rest) = (digits, rest) := by
  have hstop : rest.takeWhile Char.isDigit = [] ∧ rest.dropWhile Char.isDigit = rest := by
    cases rest with
    | nil => exact ⟨rfl, rfl⟩
    | cons c rest => simp [hrest c rfl]
  rw [spanDigits, List.takeWhile_append_of_pos hdigits, List.dropWhile_append_of_pos hdigits,
    hstop.1, hstop.2, List.append_nil]

/-! ## Numbers -/

/-- The sign in front of a number. -/
def signText (negative : Bool) : List Char := if negative then ['-'] else []

/-- The fraction at the front of a text, and what follows it. -/
def readFraction (cs : List Char) : List Char × List Char :=
  match cs with
  | '.' :: after =>
      let (digits, after) := spanDigits after
      if digits.isEmpty then ([], cs) else (digits, after)
  | rest => ([], rest)

/-- The number of a sign, the digits in front of the point, and what comes behind them. -/
def finishNumber (negative : Bool) (whole more : List Char) : Option (Number × List Char) :=
  let (fraction, rest) := readFraction more
  let value := digitsValue (whole ++ fraction)
  match readExponent rest with
  | some (e, rest) => some (.float (nearestDecimal negative value (e - fraction.length)), rest)
  | none =>
      if fraction.isEmpty then some (.int (Parts.signed negative value), rest)
      else some (.float (nearestDecimal negative value (-fraction.length)), rest)

/-- A number is read from its sign and its digits on. -/
theorem readNumber_eq {whole more : List Char} (hne : whole ≠ [])
    (hdigits : ∀ c ∈ whole, c.isDigit = true) (hmore : EndsDigits more) (negative : Bool) :
    readNumber (signText negative ++ (whole ++ more)) = finishNumber negative whole more := by
  have hempty : whole.isEmpty = false := by simpa using hne
  have hspan := spanDigits_append hdigits hmore
  have hsign : ∀ after, whole ++ more ≠ '-' :: after := by
    obtain ⟨d, ds, rfl⟩ := List.exists_cons_of_ne_nil hne
    intro after h
    have hd := hdigits d (.head _)
    obtain rfl : d = '-' := List.head_eq_of_cons_eq h
    revert hd
    decide
  cases negative with
  | true =>
      change readNumber ('-' :: (whole ++ more)) = _
      unfold readNumber
      simp only [hspan, hempty, Bool.false_eq_true, if_false]
      rfl
  | false =>
      change readNumber (whole ++ more) = _
      unfold readNumber
      simp only [hspan, hempty, Bool.false_eq_true, if_false]
      rfl

theorem readFraction_of_ne {more : List Char} (h : ∀ after, more ≠ '.' :: after) :
    readFraction more = ([], more) := by
  unfold readFraction
  split
  · next after => exact absurd rfl (h after)
  · rfl

theorem readExponent_of_stops {rest : List Char} (h : Stops rest) : readExponent rest = none := by
  cases rest with
  | nil => rfl
  | cons c rest =>
      rcases h c rfl with rfl | rfl | rfl <;> rfl

/-- Digits in front of the end of a value are an integer. -/
theorem readNumber_digits {digits rest : List Char} (hne : digits ≠ [])
    (hdigits : ∀ c ∈ digits, c.isDigit = true) (hrest : Stops rest) (negative : Bool) :
    readNumber (signText negative ++ (digits ++ rest)) =
      some (.int (Parts.signed negative (digitsValue digits)), rest) := by
  have hpoint : ∀ after, rest ≠ '.' :: after := by
    rintro after rfl
    have hstop := hrest '.' rfl
    revert hstop
    decide
  rw [readNumber_eq hne hdigits hrest.endsDigits, finishNumber, readFraction_of_ne hpoint]
  dsimp only
  rw [readExponent_of_stops hrest, List.append_nil]
  rfl

/-! ## Integers -/

/-- The digits of an integer, without its sign. -/
theorem renderNumber_int (n : Int) :
    (renderNumber (.int n)).toList =
      signText (decide (n < 0)) ++ Nat.toDigits 10 n.natAbs := by
  change (toString n).toList = _
  cases n with
  | ofNat n =>
      have htext : toString (Int.ofNat n) = n.repr := rfl
      have hsign : decide (Int.ofNat n < 0) = false := by simp
      rw [htext, Nat.toList_repr, hsign]
      rfl
  | negSucc n =>
      have htext : toString (Int.negSucc n) = "-" ++ (n + 1).repr := rfl
      have hsign : decide (Int.negSucc n < 0) = true := by simp
      rw [htext, String.toList_append, Nat.toList_repr, hsign]
      rfl

/-- An integer is its size with its sign. -/
theorem signed_natAbs (n : Int) : Parts.signed (decide (n < 0)) n.natAbs = n := by
  rw [Parts.signed]
  split
  · next hneg =>
      have := of_decide_eq_true hneg
      omega
  · next hneg =>
      have := of_decide_eq_false (Bool.eq_false_iff.2 hneg)
      omega

/-- An integer is read back. -/
theorem readNumber_int (n : Int) {rest : List Char} (hrest : Stops rest) :
    readNumber ((renderNumber (.int n)).toList ++ rest) = some (.int n, rest) := by
  have hdigits : ∀ c ∈ Nat.toDigits 10 n.natAbs, c.isDigit = true := fun c hc =>
    Nat.isDigit_of_mem_toDigits (by decide) (by decide) hc
  rw [renderNumber_int, List.append_assoc, readNumber_digits Nat.toDigits_ne_nil hdigits hrest,
    digitsValue_toDigits, signed_natAbs]

theorem isVisible_of_isDigit {c : Char} (hc : c.isDigit = true) : IsVisible c := by
  have hvalue : 48 ≤ c.toNat ∧ c.toNat ≤ 57 := Char.isDigit_iff_toNat.1 hc
  exact ⟨by omega, by omega⟩

theorem isVisible_signText (negative : Bool) : ∀ c ∈ signText negative, IsVisible c := by
  cases negative with
  | false => exact fun c hc => absurd hc List.not_mem_nil
  | true => exact List.forall_mem_singleton.2 (by decide)

/-- An integer is written with visible characters. -/
theorem isVisible_renderNumber_int (n : Int) :
    ∀ c ∈ (renderNumber (.int n)).toList, IsVisible c := by
  intro c hc
  rw [renderNumber_int, List.mem_append] at hc
  rcases hc with hc | hc
  · exact isVisible_signText _ c hc
  · exact isVisible_of_isDigit (Nat.isDigit_of_mem_toDigits (by decide) (by decide) hc)

end Bindery.Json
