import Bindery.Config.Rule
import Bindery.Proofs.Text.Expression
import Bindery.Proofs.Text.Order

/-!
# What the patterns accept

A pattern is written as a regular expression and looked for as one
(`Pattern.accepts_iff_found`).  So an accepted address is a scheme, a colon, two slashes and a
character that is no slash, with anything behind it (`accepts_address_iff`).  An accepted segment
consists of the characters of its class, but the anchor at its end lets one newline follow
(`accepts_segment_iff`).
-/

namespace Bindery

open Text (CharClass Expression)

namespace Text

/-- A code point as a character: U+FFFD for a half of a pair. -/
def shown (x : CodePoint) : Char := x.char?.getD '\ufffd'

theorem shown_eq_iff {x : CodePoint} {c : Char} (h : c ≠ '\ufffd') :
    shown x = c ↔ x = .char c := by
  cases x with
  | char d => simp [shown, CodePoint.char?]
  | half index => simp [shown, CodePoint.char?, h.symm]

theorem toNat_eq_iff {c d : Char} : c = d ↔ c.toNat = d.toNat :=
  ⟨congrArg Char.toNat, fun h => Char.ext (UInt32.toNat_inj.1 h)⟩

theorem CharClass.has_only {c : Char} {x : CodePoint} : (only c).Has x ↔ x = .char c := by
  have hcode : c.toNat = x.code ↔ x = .char c :=
    ⟨fun h => CodePoint.code_injective h.symm, fun h => h ▸ rfl⟩
  simp [Has, only, ← hcode, Nat.le_antisymm_iff]

/-- A class of characters below the halves, compared with a class on characters. -/
theorem CharClass.has_iff_shown {k : CharClass} {p : Char → Bool} (hlisted : k.negated = false)
    (hlow : ∀ range ∈ k.ranges, range.2.toNat < 0xD800) (hnone : p '\ufffd' = false)
    (hchar : ∀ c, k.Has (.char c) ↔ p c = true) (x : CodePoint) :
    k.Has x ↔ p (shown x) = true := by
  cases x with
  | char c => exact hchar c
  | half index =>
      have hhalf : ¬∃ range ∈ k.ranges, range.1.toNat ≤ (CodePoint.half index).code ∧
          (CodePoint.half index).code ≤ range.2.toNat := by
        rintro ⟨range, hrange, -, hlast⟩
        have hfirst : range.2.toNat < 0xD800 := hlow range hrange
        simp only [CodePoint.code] at hlast
        omega
      have hshown : p (shown (.half index)) = false := hnone
      simp only [Has, hhalf, hlisted, hshown, Bool.false_eq_true, iff_true]

end Text

namespace Pattern

/-! ## Patterns as expressions -/

/-- The first character of a scheme. -/
def letterClass : CharClass := { ranges := [('a', 'z')] }

/-- The characters of a scheme behind its first letter. -/
def schemeClass : CharClass :=
  { ranges := [('a', 'z'), ('0', '9'), ('+', '+'), ('.', '.'), ('-', '-')] }

/-- The characters of a segment. -/
def segmentClass : CharClass :=
  { ranges := [('A', 'Z'), ('a', 'z'), ('0', '9'), ('.', '.'), ('_', '_'), ('-', '-')] }

/-- All characters but the slash. -/
def nameClass : CharClass := { negated := true, ranges := [('/', '/')] }

/-- The expression of a pattern. -/
def expression : Pattern → Expression
  | address =>
      [.start, .one letterClass, .many schemeClass, .one (.only ':'), .one (.only '/'),
        .one (.only '/'), .some nameClass]
  | segment => [.start, .some segmentClass, .stop]

theorem text_expression (p : Pattern) : p.expression.text = p.text := by
  cases p <;> decide

/-! ## Classes -/

theorem isUpper_iff (c : Char) : c.isUpper = true ↔ 'A'.toNat ≤ c.toNat ∧ c.toNat ≤ 'Z'.toNat := by
  change decide ('A'.val ≤ c.val ∧ c.val ≤ 'Z'.val) = true ↔ _
  rw [decide_eq_true_iff]
  exact Iff.rfl

theorem isLower_iff (c : Char) : c.isLower = true ↔ 'a'.toNat ≤ c.toNat ∧ c.toNat ≤ 'z'.toNat := by
  change (decide ('a'.val ≤ c.val) && decide (c.val ≤ 'z'.val)) = true ↔ _
  rw [Bool.and_eq_true, decide_eq_true_iff, decide_eq_true_iff]
  exact Iff.rfl

theorem isAlphanum_iff (c : Char) :
    c.isAlphanum = true ↔ (c.isUpper = true ∨ c.isLower = true) ∨ c.isDigit = true := by
  change (c.isUpper || c.isLower || c.isDigit) = true ↔ _
  rw [Bool.or_eq_true, Bool.or_eq_true]

theorem has_letterClass (x : CodePoint) : letterClass.Has x ↔ (Text.shown x).isLower = true := by
  refine CharClass.has_iff_shown rfl (by decide) (by decide) (fun c => ?_) x
  simp [CharClass.Has, letterClass, CodePoint.code, isLower_iff]

theorem has_schemeClass (x : CodePoint) :
    schemeClass.Has x ↔ isSchemeChar (Text.shown x) = true := by
  refine CharClass.has_iff_shown rfl (by decide) (by decide) (fun c => ?_) x
  simp [CharClass.Has, schemeClass, isSchemeChar, CodePoint.code, isLower_iff,
    Char.isDigit_iff_toNat, Text.toNat_eq_iff]
  omega

theorem has_segmentClass (x : CodePoint) :
    segmentClass.Has x ↔ isSegmentChar (Text.shown x) = true := by
  refine CharClass.has_iff_shown rfl (by decide) (by decide) (fun c => ?_) x
  simp [CharClass.Has, segmentClass, isSegmentChar, CodePoint.code, isAlphanum_iff, isUpper_iff,
    isLower_iff, Char.isDigit_iff_toNat, Text.toNat_eq_iff]
  omega

theorem has_nameClass (x : CodePoint) : nameClass.Has x ↔ x ≠ '/' := by
  have honly : nameClass.Has x ↔ ¬(CharClass.only '/').Has x := by
    simp [CharClass.Has, nameClass, CharClass.only]
  rw [honly, CharClass.has_only]

/-! ## Addresses -/

/-- A text starts with a scheme, a colon, two slashes and a character that is no slash. -/
def IsAddress (s : Text) : Prop :=
  ∃ (letter : CodePoint) (scheme : Text) (host : CodePoint) (rest : Text),
    s = letter :: scheme ++ "://" ++ host :: rest ∧
      letterClass.Has letter ∧ (∀ x ∈ scheme, schemeClass.Has x) ∧ host ≠ '/'

theorem found_address_iff (s : Text) : address.expression.Found s ↔ IsAddress s := by
  rw [expression, Expression.found_start]
  constructor
  · rintro ⟨letter, _, rfl, hletter, scheme, _, rfl, hscheme, colon, _, rfl, hcolon, slash, _, rfl,
      hslash, slash', _, rfl, hslash', run, rest, rfl, hne, hrun, -⟩
    rw [CharClass.has_only] at hcolon hslash hslash'
    subst hcolon hslash hslash'
    cases run with
    | nil => exact absurd rfl hne
    | cons host run =>
        have hhost : host ≠ '/' := (has_nameClass host).1 (hrun host List.mem_cons_self)
        exact ⟨letter, scheme, host, run ++ rest, by simp [Text.ofString, Text.ofChars], hletter,
          hscheme, hhost⟩
  · rintro ⟨letter, scheme, host, rest, rfl, hletter, hscheme, hhost⟩
    refine ⟨letter, _, rfl, hletter, scheme, ("://" : Text) ++ host :: rest,
      List.append_assoc _ _ _, hscheme, _, _, rfl, CharClass.has_only.2 rfl, _, _, rfl,
      CharClass.has_only.2 rfl, _, _, rfl, CharClass.has_only.2 rfl, [host], rest, rfl, by simp, ?_,
      trivial⟩
    intro x hx
    cases List.mem_singleton.1 hx
    exact (has_nameClass host).2 hhost

theorem isAuthority_iff (s : Text) : isAuthority (s.map Text.shown) = true ↔
    ∃ (host : CodePoint) (rest : Text), s = "://" ++ host :: rest ∧ host ≠ '/' := by
  constructor
  · intro h
    generalize hcs : s.map Text.shown = cs at h
    unfold isAuthority at h
    split at h
    case h_1 c tail =>
      obtain ⟨colon, _, rfl, hcolon, hcs⟩ := List.map_eq_cons_iff.1 hcs
      obtain ⟨slash, _, rfl, hslash, hcs⟩ := List.map_eq_cons_iff.1 hcs
      obtain ⟨slash', _, rfl, hslash', hcs⟩ := List.map_eq_cons_iff.1 hcs
      obtain ⟨host, rest, rfl, rfl, -⟩ := List.map_eq_cons_iff.1 hcs
      rw [Text.shown_eq_iff (by decide)] at hcolon hslash hslash'
      subst hcolon hslash hslash'
      refine ⟨host, rest, rfl, fun hhost => ?_⟩
      rw [hhost] at h
      exact absurd h (by decide)
    case h_2 => cases h
  · rintro ⟨host, rest, rfl, hhost⟩
    have hshown : Text.shown host ≠ '/' := fun h => hhost ((Text.shown_eq_iff (by decide)).1 h)
    exact bne_iff_ne.2 hshown

/-- An accepted address is a scheme, a colon, two slashes and a character that is no slash. -/
theorem accepts_address_iff (s : Text) : address.accepts s = true ↔ IsAddress s := by
  constructor
  · intro h
    cases s with
    | nil => cases h
    | cons letter s =>
        obtain ⟨hletter, hauthority⟩ := Bool.and_eq_true_iff.1 h
        change isAuthority ((s.map Text.shown).dropWhile isSchemeChar) = true at hauthority
        rw [List.dropWhile_map, isAuthority_iff] at hauthority
        obtain ⟨host, rest, hrest, hhost⟩ := hauthority
        refine ⟨letter, s.takeWhile (isSchemeChar ∘ Text.shown), host, rest, ?_,
          (has_letterClass letter).2 hletter, fun x hx => ?_, hhost⟩
        · rw [List.cons_append, List.cons_append, List.append_assoc, ← hrest,
            List.takeWhile_append_dropWhile]
        · exact (has_schemeClass x).2 (List.all_eq_true.1 List.all_takeWhile x hx)
  · rintro ⟨letter, scheme, host, rest, rfl, hletter, hscheme, hhost⟩
    have hall : ∀ x ∈ scheme, (isSchemeChar ∘ Text.shown) x = true :=
      fun x hx => (has_schemeClass x).1 (hscheme x hx)
    have hdropped : (scheme ++ "://" ++ host :: rest).dropWhile (isSchemeChar ∘ Text.shown) =
        "://" ++ host :: rest := by
      rw [List.append_assoc, List.dropWhile_append_of_pos hall]
      rfl
    refine Bool.and_eq_true_iff.2 ⟨(has_letterClass letter).1 hletter, ?_⟩
    change isAuthority (((scheme ++ "://" ++ host :: rest).map Text.shown).dropWhile isSchemeChar) =
      true
    rw [List.dropWhile_map, hdropped, isAuthority_iff]
    exact ⟨host, rest, rfl, hhost⟩

/-! ## Segments -/

/-- A text consists of characters of a segment, at least one of them. -/
def IsSegment (s : Text) : Prop := s ≠ [] ∧ ∀ x ∈ s, segmentClass.Has x

theorem found_segment_iff (s : Text) : segment.expression.Found s ↔
    ∃ body : Text, IsSegment body ∧ (s = body ∨ s = body ++ "\n") := by
  rw [expression, Expression.found_start]
  constructor
  · rintro ⟨body, _, rfl, hne, hbody, rfl | rfl, -⟩
    · exact ⟨body, ⟨hne, hbody⟩, .inl (List.append_nil body)⟩
    · exact ⟨body, ⟨hne, hbody⟩, .inr rfl⟩
  · rintro ⟨body, ⟨hne, hbody⟩, rfl | rfl⟩
    · exact ⟨s, [], (List.append_nil s).symm, hne, hbody, .inl rfl, trivial⟩
    · exact ⟨body, "\n", rfl, hne, hbody, .inr rfl, trivial⟩

/-- A segment does not end with a newline. -/
theorem IsSegment.getLast?_ne {s : Text} (h : IsSegment s) : s.getLast? ≠ some (.char '\n') := by
  intro hlast
  have hclass := h.2 _ (List.mem_of_getLast? hlast)
  rw [has_segmentClass] at hclass
  exact absurd hclass (by decide)

theorem withoutNewline_append (s : Text) :
    withoutNewline ((s ++ "\n" : Text).map Text.shown) = s.map Text.shown := by
  have hmap : (s ++ "\n" : Text).map Text.shown = s.map Text.shown ++ ['\n'] := List.map_append
  rw [hmap, withoutNewline, List.getLast?_concat, if_pos rfl, List.dropLast_concat]

theorem withoutNewline_of_getLast? {s : Text} (h : s.getLast? ≠ some (.char '\n')) :
    withoutNewline (s.map Text.shown) = s.map Text.shown := by
  rw [withoutNewline, if_neg]
  rw [List.getLast?_map, Option.map_eq_some_iff]
  rintro ⟨x, hx, hshown⟩
  rw [Text.shown_eq_iff (by decide)] at hshown
  exact h (hshown ▸ hx)

/-- An accepted segment may have a newline behind it. -/
theorem accepts_segment_iff (s : Text) : segment.accepts s = true ↔
    ∃ body : Text, IsSegment body ∧ (s = body ∨ s = body ++ "\n") := by
  have haccepts : ∀ body : Text, withoutNewline (s.map Text.shown) = body.map Text.shown →
      (segment.accepts s = true ↔ IsSegment body) := by
    intro body hbody
    change (!(withoutNewline (s.map Text.shown)).isEmpty &&
      (withoutNewline (s.map Text.shown)).all isSegmentChar) = true ↔ _
    rw [hbody]
    simp [IsSegment, has_segmentClass]
  by_cases hlast : s.getLast? = some (.char '\n')
  · obtain ⟨front, rfl⟩ := List.getLast?_eq_some_iff.1 hlast
    rw [haccepts front (withoutNewline_append front)]
    constructor
    · intro h
      exact ⟨front, h, .inr rfl⟩
    · rintro ⟨body, h, rfl | heq⟩
      · exact absurd hlast h.getLast?_ne
      · rwa [List.append_cancel_right heq]
  · rw [haccepts s (withoutNewline_of_getLast? hlast)]
    constructor
    · intro h
      exact ⟨s, h, .inl rfl⟩
    · rintro ⟨body, h, rfl | rfl⟩
      · exact h
      · exact absurd (List.getLast?_concat ..) hlast

/-- A text is accepted if the expression is found in it. -/
theorem accepts_iff_found (p : Pattern) (s : Text) :
    p.accepts s = true ↔ p.expression.Found s := by
  cases p with
  | address => rw [accepts_address_iff, found_address_iff]
  | segment => rw [accepts_segment_iff, found_segment_iff]

end Pattern
end Bindery
