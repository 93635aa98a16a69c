import Bindery.Text.Basic

/-!
# Blank characters and trimming

Reference names, captured output and numbers all shed the white space around
them, and bucket names and directories shed their trailing slashes.  White
space is the class of Unicode, with the four information separators U+001C to
U+001F added.  The zero-width characters U+200B, U+2060 and U+FEFF do not
belong to it.

`isBlank` is the class and `trim` removes it from both ends.  `trimEnd` works
for any class of elements.  `trimEnd_eq_nil_iff` says when nothing is left,
and `trimEnd_append_of_all` that characters of the class added at the end have
no effect.
-/

namespace Bindery.Text

/-- The white space of a text. -/
def isBlank (c : Char) : Bool :=
  let n := c.toNat
  (0x09 ≤ n && n ≤ 0x0D) || (0x1C ≤ n && n ≤ 0x20) || n == 0x85 || n == 0xA0 || n == 0x1680 ||
    (0x2000 ≤ n && n ≤ 0x200A) || n == 0x2028 || n == 0x2029 || n == 0x202F || n == 0x205F ||
    n == 0x3000

/-- The elements up to the last one outside a class. -/
def trimEnd {α : Type} (p : α → Bool) : List α → List α
  | [] => []
  | c :: cs =>
      match trimEnd p cs with
      | [] => if p c then [] else [c]
      | kept => c :: kept

/-- The elements between the first and the last one outside a class. -/
def trimBoth {α : Type} (p : α → Bool) (cs : List α) : List α := trimEnd p (cs.dropWhile p)

/-- A text without the white space around it. -/
def trim (s : Text) : Text := trimBoth (CodePoint.is isBlank) s

/-- A text without the slashes at its end. -/
def trimSlashes (s : Text) : Text := trimEnd (· == '/') s

/-! ## What is left after trimming -/

theorem trimEnd_eq_nil_iff {α : Type} (p : α → Bool) (cs : List α) :
    trimEnd p cs = [] ↔ ∀ c ∈ cs, p c = true := by
  induction cs with
  | nil => simp [trimEnd]
  | cons c cs ih =>
      rw [List.forall_mem_cons, ← ih, trimEnd]
      cases trimEnd p cs with
      | nil => by_cases h : p c = true <;> simp [h]
      | cons d ds => simp

theorem trimEnd_append_of_all {α : Type} {p : α → Bool} {extra : List α}
    (h : ∀ c ∈ extra, p c = true) (cs : List α) : trimEnd p (cs ++ extra) = trimEnd p cs := by
  induction cs with
  | nil => simpa [trimEnd] using (trimEnd_eq_nil_iff p extra).2 h
  | cons c cs ih => simp only [List.cons_append, trimEnd, ih]

end Bindery.Text
