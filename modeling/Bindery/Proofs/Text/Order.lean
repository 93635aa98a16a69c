import Bindery.Text.Order
import Mathlib.Data.List.Lex
import Mathlib.Data.List.Nodup

/-!
# Texts in order

Texts are in the order of the numbers of their code points (`before_iff`).  So elements whose
keys are distinct stand in strict order once they are sorted (`sortOn_pairwise`), and how they
stood before does not matter (`sortOn_eq_of_perm`).
-/

namespace Bindery

theorem CodePoint.code_injective : Function.Injective CodePoint.code := by
  intro x y h
  cases x with
  | char c =>
      cases y with
      | char d => rw [Char.ext (UInt32.toNat_inj.1 h)]
      | half index =>
          -- No character has the number of a half.
          have hvalid : c.toNat < 0xD800 ∨ 0xDFFF < c.toNat ∧ c.toNat < 0x110000 := c.valid
          have hindex := index.isLt
          simp only [code] at h
          omega
  | half index =>
      cases y with
      | char d =>
          have hvalid : d.toNat < 0xD800 ∨ 0xDFFF < d.toNat ∧ d.toNat < 0x110000 := d.valid
          have hindex := index.isLt
          simp only [code] at h
          omega
      | half other => rw [Fin.ext (Nat.add_left_cancel h)]

namespace Text

/-! ## The order of texts -/

/-- The numbers of the code points of a text. -/
def codes (s : Text) : List Nat := s.map CodePoint.code

theorem codes_injective : Function.Injective codes :=
  List.map_injective_iff.2 CodePoint.code_injective

theorem before_iff (s t : Text) : before s t = true ↔ s.codes < t.codes := by
  induction s generalizing t with
  | nil => cases t <;> simp [before, codes]
  | cons x s ih =>
      cases t with
      | nil => simp [before, codes]
      | cons y t =>
          simp only [codes] at ih
          simp only [before, codes, List.map_cons, List.cons_lt_cons_iff, Bool.or_eq_true,
            Bool.and_eq_true, decide_eq_true_eq, beq_iff_eq, ih]

theorem before_trans {s t u : Text} (h : before s t = true) (h' : before t u = true) :
    before s u = true := by
  rw [before_iff] at *
  exact h.trans h'

/-- Of two texts that differ, one stands before the other. -/
theorem before_of_not_before {s t : Text} (h : ¬before s t = true) (hne : s ≠ t) :
    before t s = true := by
  rw [before_iff] at *
  exact lt_of_le_of_ne (not_lt.1 h) fun heq => hne (codes_injective heq.symm)

theorem not_before_of_before {s t : Text} (h : before s t = true) : ¬before t s = true := by
  rw [before_iff] at *
  exact h.asymm

/-! ## Sorting -/

section

variable {α : Type} {key : α → Text}

/-- The elements stand in strict order of their keys. -/
def InOrder (key : α → Text) (xs : List α) : Prop :=
  xs.Pairwise fun x y => before (key x) (key y) = true

theorem insertOn_inOrder {x : α} {ys : List α} (h : InOrder key ys)
    (hnew : ∀ y ∈ ys, key x ≠ key y) : InOrder key (insertOn key x ys) := by
  induction ys with
  | nil => exact List.pairwise_singleton _ _
  | cons y ys ih =>
      obtain ⟨hy, hys⟩ := List.pairwise_cons.1 h
      obtain ⟨hxy, hnew⟩ := List.forall_mem_cons.1 hnew
      rw [insertOn]
      split
      next hbefore =>
        refine List.pairwise_cons.2 ⟨fun z hz => ?_, ih hys hnew⟩
        rcases List.mem_cons.1 ((insertOn_perm key x ys).mem_iff.1 hz) with rfl | hz
        · exact hbefore
        · exact hy z hz
      next hnot =>
        have hfirst : before (key x) (key y) = true := before_of_not_before hnot hxy.symm
        refine List.pairwise_cons.2 ⟨fun z hz => ?_, h⟩
        rcases List.mem_cons.1 hz with rfl | hz
        · exact hfirst
        · exact before_trans hfirst (hy z hz)

theorem sortOn_inOrder {xs : List α} (h : (xs.map key).Nodup) : InOrder key (sortOn key xs) := by
  induction xs with
  | nil => exact List.Pairwise.nil
  | cons x xs ih =>
      obtain ⟨hx, hxs⟩ := List.nodup_cons.1 h
      refine insertOn_inOrder (ih hxs) fun y hy heq => hx ?_
      rw [heq]
      exact List.mem_map_of_mem ((sortOn_perm key xs).mem_iff.1 hy)

/-- Elements with distinct keys are sorted in one way only. -/
theorem sortOn_eq_of_perm {xs ys : List α} (h : (xs.map key).Nodup) (hperm : xs.Perm ys) :
    sortOn key xs = sortOn key ys := by
  have hsorted : (sortOn key xs).Perm (sortOn key ys) :=
    (sortOn_perm key xs).trans (hperm.trans (sortOn_perm key ys).symm)
  have hys : (ys.map key).Nodup := (hperm.map key).nodup_iff.1 h
  refine hsorted.eq_of_pairwise (fun x y _ _ hxy hyx => ?_) (sortOn_inOrder h) (sortOn_inOrder hys)
  exact absurd hyx (not_before_of_before hxy)

end

end Text
end Bindery
