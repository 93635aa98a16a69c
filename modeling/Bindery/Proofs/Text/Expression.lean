import Bindery.Text.Basic

/-!
# Regular expressions

An expression is a row of items.  An item is an anchor or a class of characters, and the class
stands for one character or for a run of them.  `Expression.text` is how an expression is
written.

`Expression.Matches` says that the items match one behind the other at a place of a text, and
`Expression.Found` that they do so at some place.  What stands behind the match does not
matter.  The anchor at the end also holds in front of a newline, if the text ends with it.
`found_start` says that an expression that begins with the anchor at the start is only looked
for there.
-/

namespace Bindery.Text

/-! ## Classes of characters -/

/-- A class of characters: those in one of some ranges, or those in none of them. -/
structure CharClass where
  /-- The class has the characters outside of the ranges. -/
  negated : Bool := false
  /-- The first and the last character of each range. -/
  ranges : List (Char × Char)

namespace CharClass

/-- The class of one character. -/
def only (c : Char) : CharClass := { ranges := [(c, c)] }

/-- The class has a code point. -/
def Has (k : CharClass) (x : CodePoint) : Prop :=
  (∃ range ∈ k.ranges, range.1.toNat ≤ x.code ∧ x.code ≤ range.2.toNat) ↔ k.negated = false

/-- A range as it is written. -/
def rangeText (range : Char × Char) : String :=
  if range.1 = range.2 then String.singleton range.1
  else String.ofList [range.1, '-', range.2]

/-- A class as it is written.  A character that is alone in its class stands for itself. -/
def text (k : CharClass) : String :=
  match k with
  | ⟨false, [(first, last)]⟩ =>
      if first = last then String.singleton first else "[" ++ rangeText (first, last) ++ "]"
  | ⟨negated, ranges⟩ =>
      (if negated then "[^" else "[") ++ String.join (ranges.map rangeText) ++ "]"

end CharClass

/-! ## Expressions -/

/-- A part of an expression. -/
inductive Item where
  /-- The start of the text. -/
  | start
  /-- The end of the text, or the place in front of a newline there. -/
  | stop
  /-- One character of a class. -/
  | one (k : CharClass)
  /-- Characters of a class, any number of them. -/
  | many (k : CharClass)
  /-- Characters of a class, at least one of them. -/
  | some (k : CharClass)

/-- An item as it is written. -/
def Item.text : Item → String
  | start => "^"
  | stop => "$"
  | one k => k.text
  | many k => k.text ++ "*"
  | some k => k.text ++ "+"

/-- Items that match one behind the other. -/
abbrev Expression := List Item

namespace Expression

/-- An expression as it is written. -/
def text (e : Expression) : String := String.join (e.map Item.text)

/-- The expression matches at a place of a text, given what stands in front of the place and
behind it. -/
def Matches : Expression → (before behind : Text) → Prop
  | [], _, _ => True
  | .start :: e, before, behind => before = [] ∧ Matches e before behind
  | .stop :: e, before, behind => (behind = [] ∨ behind = "\n") ∧ Matches e before behind
  | .one k :: e, before, behind =>
      ∃ x rest, behind = x :: rest ∧ k.Has x ∧ Matches e (before ++ [x]) rest
  | .many k :: e, before, behind =>
      ∃ run rest, behind = run ++ rest ∧ (∀ x ∈ run, k.Has x) ∧
        Matches e (before ++ run) rest
  | .some k :: e, before, behind =>
      ∃ run rest, behind = run ++ rest ∧ run ≠ [] ∧ (∀ x ∈ run, k.Has x) ∧
        Matches e (before ++ run) rest

/-- The expression matches at some place of a text. -/
def Found (e : Expression) (s : Text) : Prop :=
  ∃ before behind, s = before ++ behind ∧ e.Matches before behind

/-- What has to start with the text is not looked for anywhere else. -/
theorem found_start (e : Expression) (s : Text) :
    Found (.start :: e) s ↔ e.Matches [] s := by
  constructor
  · rintro ⟨before, behind, rfl, rfl, h⟩
    exact h
  · intro h
    exact ⟨[], s, rfl, rfl, h⟩

end Expression
end Bindery.Text
