import Bindery.Text.Basic

/-!
# Order by a text

Members of an object, fields of an event and names in a message are written in
the order of their keys, by code point.  `sortOn` is a stable insertion sort.
`sortOn_perm` says it only rearranges its list.
-/

namespace Bindery.Text

/-- A text stands before another one, by the numbers of their code points. -/
def before : Text → Text → Bool
  | _, [] => false
  | [], _ :: _ => true
  | x :: xs, y :: ys => x.code < y.code || (x.code == y.code && before xs ys)

/-- An element put in front of the first element whose key is not below its own. -/
def insertOn {α : Type} (key : α → Text) (x : α) : List α → List α
  | [] => [x]
  | y :: ys => if before (key y) (key x) then y :: insertOn key x ys else x :: y :: ys

/-- A list in the order of its keys.  Elements with one key keep their order. -/
def sortOn {α : Type} (key : α → Text) (xs : List α) : List α :=
  xs.foldr (insertOn key) []

/-! ## Sorting rearranges -/

theorem insertOn_perm {α : Type} (key : α → Text) (x : α) (ys : List α) :
    (insertOn key x ys).Perm (x :: ys) := by
  induction ys with
  | nil => exact .refl _
  | cons y ys ih =>
      rw [insertOn]
      split
      · exact (ih.cons y).trans (.swap x y ys)
      · exact .refl _

theorem sortOn_perm {α : Type} (key : α → Text) (xs : List α) : (sortOn key xs).Perm xs := by
  induction xs with
  | nil => exact .refl _
  | cons x xs ih => exact (insertOn_perm key x _).trans (ih.cons x)

/-! ## Tests -/

example : sortOn ofString ["b", "", "é", "a", "_", "C"] = ["", "C", "_", "a", "b", "é"] := by
  decide
example : before [.half 0] "\uffff" = true := by decide
example : before [.half 0] "\ud7ff" = false := by decide

end Bindery.Text
