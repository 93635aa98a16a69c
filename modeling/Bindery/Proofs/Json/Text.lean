import Bindery.Json.Printer
import Bindery.Json.Reader
import Mathlib.Tactic.SplitIfs

/-!
# Strings are read back

A string that is written in quotes is read back, whatever its code points are
(`readText_renderText`).  The only thing that is lost is how a character was put together: two
halves of a surrogate pair next to each other are read as the character that they make up.
`Text.joined` is the text with all such halves joined, and a text without them is settled.

The reader looks one escape ahead.  `Opens` says with which escape a text starts, if it does
with one, and that is all the reader sees of what follows an escape.
-/

namespace Bindery

/-! ## Halves next to each other -/

namespace Text

/-- The character that two halves of a pair make up. -/
def pairOf (high low : Fin 0x800) : Char :=
  Json.pairedUnits (CodePoint.half high).code (CodePoint.half low).code

/-- Two halves make up a character, a first one and a second one. -/
def arePaired (high low : Fin 0x800) : Bool :=
  Json.isHigh (CodePoint.half high).code && Json.isLow (CodePoint.half low).code

/-- A text with the halves next to each other joined. -/
def joined : Text → Text
  | .half high :: .half low :: s =>
      if arePaired high low then .char (pairOf high low) :: joined s
      else .half high :: joined (.half low :: s)
  | x :: s => x :: joined s
  | [] => []

/-- No halves of the text make up a character. -/
def IsSettled (s : Text) : Prop := joined s = s

instance (s : Text) : Decidable s.IsSettled := inferInstanceAs (Decidable (joined s = s))

theorem joined_char (c : Char) (s : Text) : joined (.char c :: s) = .char c :: joined s := by
  rw [joined]
  simp

theorem isSettled_ofChars (cs : List Char) : IsSettled (ofChars cs) := by
  induction cs with
  | nil => rfl
  | cons c cs ih =>
      rw [IsSettled, ofChars, List.map_cons, joined_char]
      exact congrArg _ ih

theorem isSettled_ofString (s : String) : IsSettled (ofString s) := isSettled_ofChars _

end Text

namespace Json

open Text (joined hexDigits)

/-! ## Units -/

theorem hexValue?_digitChar : ∀ d < 16, hexValue? (Nat.digitChar d) = some d := by decide

/-- An escape starts with a backslash and a letter, and its digits have the value of the unit. -/
theorem unitEscape_eq {n : Nat} (hn : n < 0x10000) :
    ∃ a b c d, unitEscape n = ['\\', 'u', a, b, c, d] ∧ unit? a b c d = some n := by
  refine ⟨_, _, _, _, rfl, ?_⟩
  have hdigit (k : Nat) : hexValue? (Nat.digitChar (k % 16)) = some (k % 16) :=
    hexValue?_digitChar _ (Nat.mod_lt k (by decide))
  simp only [unit?, hdigit, Option.bind_eq_bind, Option.bind_some, Option.pure_def]
  congr 1
  omega

/-- What a text opens with: the escape of a unit, or no escape of a unit. -/
def Opens : Option Nat → List Char → Prop
  | some n, cs => ∃ a b c d rest, cs = '\\' :: 'u' :: a :: b :: c :: d :: rest ∧
      unit? a b c d = some n
  | none, cs => ∀ a b c d rest, cs ≠ '\\' :: 'u' :: a :: b :: c :: d :: rest

theorem opens_unitEscape {n : Nat} (hn : n < 0x10000) (rest : List Char) :
    Opens (some n) (unitEscape n ++ rest) := by
  obtain ⟨a, b, c, d, hescape, hunit⟩ := unitEscape_eq hn
  exact ⟨a, b, c, d, rest, by rw [hescape]; rfl, hunit⟩

/-! ## Steps of the reader -/

/-- A code point in front of what is read. -/
def consPoint (x : CodePoint) (p : Text × List Char) : Text × List Char := (x :: p.1, p.2)

theorem readText_quote (rest : List Char) : readText ('\x22' :: rest) = some ([], rest) := by
  rw [readText]

theorem readText_char {c : Char} (hquote : c ≠ '\x22') (hslash : c ≠ '\\') (rest : List Char) :
    readText (c :: rest) = (readText rest).map (consPoint (.char c)) := by
  rw [readText]
  · cases readText rest <;> rfl
  all_goals simp_all

theorem readText_letter {c d : Char} (hunit : c ≠ 'u') (h : letterEscape? c = some d)
    (rest : List Char) :
    readText ('\\' :: c :: rest) = (readText rest).map (consPoint (.char d)) := by
  rw [readText]
  · rw [h]
    cases readText rest <;> rfl
  all_goals simp_all

/-- A unit stands for itself if it makes up no pair with the unit that follows. -/
theorem readText_unitEscape {n : Nat} (hn : n < 0x10000) {rest : List Char} {next : Option Nat}
    (hnext : Opens next rest) (hpair : ∀ m ∈ next, (isHigh n && isLow m) = false) :
    readText (unitEscape n ++ rest) = (readText rest).map (consPoint (.ofCode n)) := by
  obtain ⟨a, b, c, d, hescape, hunit⟩ := unitEscape_eq hn
  rw [hescape]
  change readText ('\\' :: 'u' :: a :: b :: c :: d :: rest) = _
  rw [readText, hunit]
  cases next with
  | none =>
      dsimp only [Option.bind_eq_bind, Option.bind_some]
      split
      · next e f g k after => exact absurd rfl (hnext e f g k after)
      · cases readText rest <;> rfl
  | some m =>
      obtain ⟨e, f, g, k, after, rfl, hunit'⟩ := hnext
      simp only [Option.bind_eq_bind, Option.bind_some, hunit', hpair m rfl, Bool.false_eq_true,
        if_false]
      cases readText ('\\' :: 'u' :: e :: f :: g :: k :: after) <;> rfl

/-- Two units that make up a pair stand for one character. -/
theorem readText_pair {n m : Nat} (hn : n < 0x10000) (hm : m < 0x10000)
    (hpair : (isHigh n && isLow m) = true) (rest : List Char) :
    readText (unitEscape n ++ (unitEscape m ++ rest)) =
      (readText rest).map (consPoint (.char (pairedUnits n m))) := by
  obtain ⟨a, b, c, d, hescape, hunit⟩ := unitEscape_eq hn
  obtain ⟨e, f, g, k, hescape', hunit'⟩ := unitEscape_eq hm
  rw [hescape, hescape']
  change readText
    ('\\' :: 'u' :: a :: b :: c :: d :: '\\' :: 'u' :: e :: f :: g :: k :: rest) = _
  rw [readText, hunit]
  simp only [Option.bind_eq_bind, Option.bind_some, hunit', hpair, if_true]
  cases readText rest <;> rfl

/-! ## Code points -/

theorem ofCode_half (index : Fin 0x800) :
    CodePoint.ofCode (CodePoint.half index).code = .half index := by
  have h : 0xD800 + index.val - 0xD800 < 0x800 ∧ 0xD800 ≤ 0xD800 + index.val := by omega
  rw [CodePoint.ofCode, CodePoint.code, dif_pos h]
  simp

/-- The number of a character is none of a half. -/
theorem toNat_bounds (c : Char) : c.toNat < 0xD800 ∨ 0xDFFF < c.toNat ∧ c.toNat < 0x110000 :=
  c.valid

theorem ofCode_char (c : Char) : CodePoint.ofCode c.toNat = .char c := by
  have hvalid := toNat_bounds c
  rw [CodePoint.ofCode, dif_neg (by omega), Char.ofNat_toNat]

/-- A character beyond the units is made up of a pair. -/
theorem pairedUnits_of_le {c : Char} (h : 0x10000 ≤ c.toNat) :
    pairedUnits (0xD800 + (c.toNat - 0x10000) / 0x400)
      (0xDC00 + (c.toNat - 0x10000) % 0x400) = c := by
  have hvalue : 0x10000 + (0xD800 + (c.toNat - 0x10000) / 0x400 - 0xD800) * 0x400 +
      (0xDC00 + (c.toNat - 0x10000) % 0x400 - 0xDC00) = c.toNat := by omega
  rw [pairedUnits, hvalue, Char.ofNat_toNat]

theorem code_half_lt (index : Fin 0x800) : (CodePoint.half index).code < 0x10000 := by
  have := index.isLt
  simp only [CodePoint.code]
  omega

/-- How a character is written. -/
inductive Written (c : Char) : List Char → Prop where
  /-- As it is. -/
  | plain (hquote : c ≠ '\x22') (hslash : c ≠ '\\') (hlow : 0x20 ≤ c.toNat)
      (hhigh : c.toNat < 0x7F) : Written c [c]
  /-- By a letter. -/
  | letter {l : Char} (hunit : l ≠ 'u') (h : letterEscape? l = some c) (hlow : 0x20 ≤ l.toNat)
      (hhigh : l.toNat < 0x7F) : Written c ['\\', l]
  /-- By its unit. -/
  | unit (h : c.toNat < 0x10000) : Written c (unitEscape c.toNat)
  /-- By the units of a pair. -/
  | pair (h : 0x10000 ≤ c.toNat) : Written c
      (unitEscape (0xD800 + (c.toNat - 0x10000) / 0x400) ++
        unitEscape (0xDC00 + (c.toNat - 0x10000) % 0x400))

theorem eq_ofNat_of_toNat {c : Char} {n : Nat} (h : c.toNat = n) : c = Char.ofNat n := by
  rw [← h, Char.ofNat_toNat]

theorem written_renderChar (c : Char) : Written c (renderChar c) := by
  unfold renderChar
  dsimp only
  split_ifs with hquote hslash hplain hnewline hreturn htab hback hfeed hunit
  · obtain rfl : c = '\x22' := eq_of_beq hquote
    exact .letter (by decide) (by decide) (by decide) (by decide)
  · obtain rfl : c = '\\' := eq_of_beq hslash
    exact .letter (by decide) (by decide) (by decide) (by decide)
  · simp only [Bool.and_eq_true, decide_eq_true_eq] at hplain
    exact .plain (by simpa using hquote) (by simpa using hslash) hplain.1 hplain.2
  · obtain rfl : c = '\n' := eq_of_beq hnewline
    exact .letter (by decide) (by decide) (by decide) (by decide)
  · obtain rfl : c = '\r' := eq_of_beq hreturn
    exact .letter (by decide) (by decide) (by decide) (by decide)
  · obtain rfl : c = '\t' := eq_of_beq htab
    exact .letter (by decide) (by decide) (by decide) (by decide)
  · obtain rfl : c = '\x08' := eq_ofNat_of_toNat (eq_of_beq hback)
    exact .letter (by decide) (by decide) (by decide) (by decide)
  · obtain rfl : c = '\x0c' := eq_ofNat_of_toNat (eq_of_beq hfeed)
    exact .letter (by decide) (by decide) (by decide) (by decide)
  · exact .unit hunit
  · exact .pair (Nat.le_of_not_lt hunit)

/-- The number of a character is no half of a pair. -/
theorem isHigh_toNat (c : Char) : isHigh c.toNat = false := by
  have hvalid := toNat_bounds c
  simp only [isHigh, Bool.and_eq_false_iff, decide_eq_false_iff_not]
  omega

theorem isLow_toNat (c : Char) : isLow c.toNat = false := by
  have hvalid := toNat_bounds c
  simp only [isLow, Bool.and_eq_false_iff, decide_eq_false_iff_not]
  omega

/-- The units of a character beyond the units make up a pair. -/
theorem units_of_le {c : Char} (h : 0x10000 ≤ c.toNat) :
    let high := 0xD800 + (c.toNat - 0x10000) / 0x400
    let low := 0xDC00 + (c.toNat - 0x10000) % 0x400
    high < 0x10000 ∧ low < 0x10000 ∧ isHigh high = true ∧ isLow high = false ∧
      isLow low = true := by
  have hvalid := toNat_bounds c
  simp only [isHigh, isLow, Bool.and_eq_true, Bool.and_eq_false_iff, decide_eq_true_eq,
    decide_eq_false_iff_not]
  omega

/-- A character is read back. -/
theorem readText_renderChar (c : Char) {rest : List Char} {next : Option Nat}
    (hnext : Opens next rest) :
    readText (renderChar c ++ rest) = (readText rest).map (consPoint (.char c)) := by
  have hwritten := written_renderChar c
  generalize renderChar c = cs at hwritten
  cases hwritten with
  | plain hquote hslash => exact readText_char hquote hslash rest
  | letter hunit h => exact readText_letter hunit h rest
  | unit h =>
      rw [readText_unitEscape h hnext (by simp [isHigh_toNat]), ofCode_char]
  | pair h =>
      obtain ⟨hhigh, hlow, hisHigh, -, hisLow⟩ := units_of_le h
      rw [List.append_assoc, readText_pair hhigh hlow (by rw [hisHigh, hisLow]; rfl),
        pairedUnits_of_le h]

/-! ## Texts -/

/-- The inside of a string, with its closing quote. -/
def inside (s : Text) : List Char := s.flatMap renderPoint ++ ['\x22']

theorem inside_cons (x : CodePoint) (s : Text) : inside (x :: s) = renderPoint x ++ inside s := by
  rw [inside, List.flatMap_cons, List.append_assoc, inside]

/-- A string opens with a second half only if its text does. -/
theorem exists_opens (s : Text) (rest : List Char) : ∃ next, Opens next (inside s ++ rest) ∧
    ∀ m ∈ next, isLow m = true → ∃ low s', s = .half low :: s' ∧ m = (CodePoint.half low).code := by
  cases s with
  | nil => exact ⟨none, by simp [Opens, inside], by simp⟩
  | cons x s =>
      rw [inside_cons, List.append_assoc]
      cases x with
      | half low =>
          refine ⟨some _, opens_unitEscape (code_half_lt low) _, ?_⟩
          rintro m ⟨⟩ -
          exact ⟨low, s, rfl, rfl⟩
      | char c =>
          rw [renderPoint]
          have hwritten := written_renderChar c
          generalize renderChar c = cs at hwritten
          cases hwritten with
          | plain hquote hslash => exact ⟨none, by simp [Opens, hslash], by simp⟩
          | letter hunit h => exact ⟨none, by simp [Opens, hunit], by simp⟩
          | unit h =>
              refine ⟨some _, opens_unitEscape h _, ?_⟩
              rintro m ⟨⟩ hlow
              rw [isLow_toNat] at hlow
              cases hlow
          | pair h =>
              obtain ⟨hhigh, -, -, hnot, -⟩ := units_of_le h
              refine ⟨some _, by rw [List.append_assoc]; exact opens_unitEscape hhigh _, ?_⟩
              rintro m ⟨⟩ hlow
              rw [hnot] at hlow
              cases hlow

/-- The inside of a string is read back as the text with its halves joined. -/
theorem readText_inside (s : Text) (rest : List Char) :
    readText (inside s ++ rest) = some (joined s, rest) := by
  induction s using Text.joined.induct with
  | case1 high low s hpair ih =>
      rw [inside_cons, inside_cons, List.append_assoc, List.append_assoc, renderPoint, renderPoint,
        readText_pair (code_half_lt high) (code_half_lt low) hpair, ih, joined, if_pos hpair]
      rfl
  | case2 high low s hpair ih =>
      -- the half stays alone, as its pair with whatever unit the rest opens with is no character
      obtain ⟨next, hnext, hlow⟩ := exists_opens (.half low :: s) rest
      have hunit : ∀ m ∈ next, (isHigh (CodePoint.half high).code && isLow m) = false := by
        refine fun m hm => Bool.eq_false_iff.2 fun hboth => ?_
        obtain ⟨low', s', hs, rfl⟩ := hlow m hm (Bool.and_eq_true_iff.1 hboth).2
        cases hs
        exact hpair hboth
      rw [inside_cons, List.append_assoc, renderPoint,
        readText_unitEscape (code_half_lt high) hnext hunit, ih, joined, if_neg hpair, ofCode_half]
      rfl
  | case3 x s hne ih =>
      obtain ⟨next, hnext, hlow⟩ := exists_opens s rest
      have hjoined : joined (x :: s) = x :: joined s := by
        rw [joined]
        exact hne
      rw [inside_cons, List.append_assoc, hjoined]
      cases x with
      | char c =>
          rw [renderPoint, readText_renderChar c hnext, ih]
          rfl
      | half high =>
          have hunit : ∀ m ∈ next, (isHigh (CodePoint.half high).code && isLow m) = false := by
            refine fun m hm => Bool.eq_false_iff.2 fun hboth => ?_
            obtain ⟨low, s', rfl, -⟩ := hlow m hm (Bool.and_eq_true_iff.1 hboth).2
            exact hne high low s' rfl rfl
          rw [renderPoint, readText_unitEscape (code_half_lt high) hnext hunit, ih, ofCode_half]
          rfl
  | case4 => exact readText_quote rest

/-! ## Visible characters -/

/-- The character is one of the visible ones of ASCII, or the blank. -/
def IsVisible (c : Char) : Prop := 0x20 ≤ c.toNat ∧ c.toNat < 0x7F

instance (c : Char) : Decidable (IsVisible c) := inferInstanceAs (Decidable (_ ∧ _))

theorem isVisible_digitChar : ∀ d < 16, IsVisible (Nat.digitChar d) := by decide

theorem isVisible_unitEscape (n : Nat) : ∀ c ∈ unitEscape n, IsVisible c := by
  have hdigit (k : Nat) : IsVisible (Nat.digitChar (k % 16)) :=
    isVisible_digitChar _ (Nat.mod_lt k (by decide))
  simp only [unitEscape, hexDigits, List.nil_append, List.cons_append, List.mem_cons,
    List.not_mem_nil, or_false, forall_eq_or_imp, forall_eq]
  exact ⟨by decide, by decide, hdigit _, hdigit _, hdigit _, hdigit _⟩

theorem isVisible_renderChar (c : Char) : ∀ d ∈ renderChar c, IsVisible d := by
  have hwritten := written_renderChar c
  generalize renderChar c = cs at hwritten
  cases hwritten with
  | plain hquote hslash hlow hhigh => simpa using ⟨hlow, hhigh⟩
  | letter hunit h hlow hhigh =>
      have hslash : IsVisible '\\' := by decide
      simpa using ⟨hslash, hlow, hhigh⟩
  | unit h => exact isVisible_unitEscape _
  | pair h =>
      intro d hd
      exact (List.mem_append.1 hd).elim (isVisible_unitEscape _ d) (isVisible_unitEscape _ d)

/-- A string is written with visible characters. -/
theorem isVisible_renderText (s : Text) : ∀ c ∈ renderText s, IsVisible c := by
  have hquote : IsVisible '\x22' := by decide
  have hpoint (x : CodePoint) : ∀ c ∈ renderPoint x, IsVisible c := by
    cases x with
    | char c => exact isVisible_renderChar c
    | half index => exact isVisible_unitEscape _
  intro c hc
  rw [renderText, List.mem_append, List.mem_cons, List.mem_flatMap] at hc
  rcases hc with (rfl | ⟨x, -, hc⟩) | hc
  · exact hquote
  · exact hpoint x c hc
  · cases List.mem_singleton.1 hc
    exact hquote

end Json
end Bindery
