/-!
# Texts

A `Text` is a list of code points.  Nearly all of them are characters.  An
escape in a configuration file may also name one half of a surrogate pair.
Such a half stays what it is, even next to its other half, so two halves and
the character they would pair up to are different texts.

A string counts as the text of its characters.
-/

namespace Bindery

/-! ## Code points -/

/-- A character, or one half of a surrogate pair. -/
inductive CodePoint where
  /-- A character. -/
  | char (c : Char)
  /-- A half of a surrogate pair, by its distance from U+D800. -/
  | half (index : Fin 0x800)
deriving DecidableEq, Repr, Inhabited

namespace CodePoint

instance : Coe Char CodePoint := ⟨char⟩

/-- The number of a code point. -/
def code : CodePoint → Nat
  | char c => c.toNat
  | half index => 0xD800 + index.val

/-- The code point with a number up to U+10FFFF. -/
def ofCode (n : Nat) : CodePoint :=
  if h : n - 0xD800 < 0x800 ∧ 0xD800 ≤ n then half ⟨n - 0xD800, h.1⟩ else char (Char.ofNat n)

/-- The code point is a character of a class. -/
def is (p : Char → Bool) : CodePoint → Bool
  | char c => p c
  | half _ => false

/-- The character of a code point, if it is one. -/
def char? : CodePoint → Option Char
  | char c => some c
  | half _ => none

end CodePoint

/-! ## Texts -/

/-- A list of code points. -/
abbrev Text := List CodePoint

namespace Text

/-- The text of some characters. -/
def ofChars (cs : List Char) : Text := cs.map .char

/-- The text of a string. -/
def ofString (s : String) : Text := ofChars s.toList

instance : Coe String Text := ⟨ofString⟩

/-- The characters of a text, if it has no halves. -/
def chars? (s : Text) : Option (List Char) := s.mapM CodePoint.char?

/-- The characters of a text, with U+FFFD for each half. -/
def chars (s : Text) : List Char := s.map fun x => x.char?.getD '\ufffd'

/-- A text as a string, with U+FFFD for each half. -/
def lossy (s : Text) : String := String.ofList s.chars

/-! ## Texts and strings -/

theorem ofString_append (s t : String) : ofString (s ++ t) = ofString s ++ ofString t := by
  simp [ofString, ofChars]

theorem chars?_ofChars (cs : List Char) : chars? (ofChars cs) = some cs := by
  induction cs with
  | nil => rfl
  | cons c cs ih =>
      simp only [chars?, ofChars] at ih
      simp [chars?, ofChars, CodePoint.char?, ih]

/-! ## Tests -/

example : CodePoint.ofCode 0xDFFF = .half 0x7FF := by decide
example : (CodePoint.ofCode 0xE000).code = 0xE000 := by decide
example : ofString "💥" ≠ [.half 0x3D, .half 0x4A5] := by decide

end Text
end Bindery
