import Bindery.Text.Blank
import Mathlib.Data.List.DropRight

/-!
# Trimming

A trimmed text has nothing left to trim (`trim_trim`).  What is taken off the end is of the
class (`exists_trimEnd_append`), and what is left does not end with it (`getLast?_trimEnd`).  The
front up to an element outside the class stays (`trimEnd_append_cons`), and so does what is
behind one (`dropWhile_append_cons`).
-/

namespace Bindery.Text

variable {α : Type} (p : α → Bool)

theorem trimEnd_trimEnd (cs : List α) : trimEnd p (trimEnd p cs) = trimEnd p cs := by
  induction cs with
  | nil => rfl
  | cons c cs ih =>
      rw [trimEnd]
      cases hkept : trimEnd p cs with
      | nil => by_cases h : p c = true <;> simp [h, trimEnd]
      | cons d ds =>
          rw [hkept] at ih
          show trimEnd p (c :: d :: ds) = c :: d :: ds
          rw [trimEnd, ih]

/-- Trimming the end leaves the front as it is. -/
theorem dropWhile_trimEnd {cs : List α} (h : cs.dropWhile p = cs) :
    (trimEnd p cs).dropWhile p = trimEnd p cs := by
  cases cs with
  | nil => rfl
  | cons c cs =>
      have hc : ¬p c := List.dropWhile_eq_self_iff.1 h (Nat.succ_pos _)
      rw [trimEnd]
      cases trimEnd p cs <;> simp [hc]

theorem trimBoth_trimBoth (cs : List α) : trimBoth p (trimBoth p cs) = trimBoth p cs := by
  rw [trimBoth, trimBoth, dropWhile_trimEnd p (List.dropWhile_idempotent p cs), trimEnd_trimEnd]

@[simp] theorem trim_trim (s : Text) : trim (trim s) = trim s := trimBoth_trimBoth _ s

/-! ## The end of a list -/

theorem exists_trimEnd_append (cs : List α) :
    ∃ dropped, cs = trimEnd p cs ++ dropped ∧ ∀ c ∈ dropped, p c = true := by
  induction cs with
  | nil => exact ⟨[], rfl, by simp⟩
  | cons c cs ih =>
      obtain ⟨dropped, hcs, hdropped⟩ := ih
      rw [trimEnd]
      cases hkept : trimEnd p cs with
      | nil =>
          rw [hkept, List.nil_append] at hcs
          by_cases h : p c = true
          · exact ⟨c :: cs, by simp [h], by simpa [h, hcs] using hdropped⟩
          · exact ⟨dropped, by simp [h, hcs], hdropped⟩
      | cons d ds =>
          rw [hkept] at hcs
          exact ⟨dropped, by rw [hcs]; rfl, hdropped⟩

theorem getLast?_trimEnd {cs : List α} {c : α} (h : (trimEnd p cs).getLast? = some c) :
    ¬p c = true := by
  induction cs with
  | nil => simp [trimEnd] at h
  | cons d cs ih =>
      rw [trimEnd] at h
      cases hkept : trimEnd p cs with
      | nil =>
          rw [hkept] at h
          by_cases hd : p d = true
          · simp [hd] at h
          · simp only [hd, Bool.false_eq_true, if_false, List.getLast?_singleton,
              Option.some.injEq] at h
            exact h ▸ hd
      | cons e es =>
          rw [hkept] at h ih
          exact ih (by simpa using h)

/-- What stands in front of an element outside the class stays. -/
theorem trimEnd_append_cons {c : α} (h : ¬p c = true) (front rest : List α) :
    trimEnd p (front ++ c :: rest) = front ++ c :: trimEnd p rest := by
  have hrest : trimEnd p (c :: rest) = c :: trimEnd p rest := by
    rw [trimEnd]
    cases trimEnd p rest <;> simp [h]
  induction front with
  | nil => exact hrest
  | cons d front ih =>
      rw [List.cons_append, trimEnd, ih]
      cases front <;> rfl

/-- What stands behind an element outside the class stays. -/
theorem dropWhile_append_cons {c : α} (h : ¬p c = true) (front rest : List α) :
    (front ++ c :: rest).dropWhile p = front.dropWhile p ++ c :: rest := by
  induction front with
  | nil => exact List.dropWhile_cons_of_neg h
  | cons d front ih =>
      rw [List.cons_append, List.dropWhile_cons, List.dropWhile_cons]
      split
      · exact ih
      · rfl

/-- A front is trimmed, but not what is behind it if that starts and ends outside the class. -/
theorem trimBoth_append {c d : α} (hc : ¬p c = true) (hd : ¬p d = true) (front middle : List α) :
    trimBoth p (front ++ c :: middle ++ [d]) = front.dropWhile p ++ c :: middle ++ [d] := by
  have hdropped : (front ++ c :: middle ++ [d]).dropWhile p =
      (front.dropWhile p ++ c :: middle) ++ [d] := by
    rw [List.append_assoc, List.cons_append, dropWhile_append_cons p hc]
    simp
  rw [trimBoth, hdropped, trimEnd_append_cons p hd]
  rfl

end Bindery.Text
