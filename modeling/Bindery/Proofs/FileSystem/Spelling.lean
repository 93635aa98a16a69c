import Bindery.Proofs.FileSystem.Names
import Mathlib.Logic.Relation

/-!
# Spellings of paths

The components of a text are what is between its slashes, less the empty ones and those that are
`.` (`components`).  Reading a path keeps the root of the text and its components, and nothing
else (`parse_eq`).

Behind the first component a slash may be repeated, a `.` may be put between two slashes, and the
text may end with a slash (`Respells`).  Texts that differ by such changes, whatever their number,
are read as one path (`Respelled.parse_eq`).
-/

namespace Bindery.Path

/-- The components of a text, with `..` among them. -/
def components (s : Text) : List Text :=
  (s.splitOn (.char '/')).filter fun piece => piece ≠ [] ∧ piece ≠ Text.ofString "."

/-- The text starts with a slash. -/
def IsRooted (s : Text) : Prop := s.head? = some (.char '/')

instance (s : Text) : Decidable (IsRooted s) := inferInstanceAs (Decidable (_ = _))

variable {s t front : Text} {p q : Path}

/-! ## Reading -/

theorem pieces_eq_splitOn (s : Text) : pieces s = s.splitOn (.char '/') := by
  induction s with
  | nil => rfl
  | cons x s ih =>
      obtain ⟨first, rest, hs⟩ := List.exists_cons_of_ne_nil (pieces_ne_nil s)
      rw [List.splitOn_eq_splitOnP, List.splitOnP_cons_eq_if_modifyHead,
        ← List.splitOn_eq_splitOnP, ← ih]
      simp only [pieces, hs, List.modifyHead_cons]

/-- A path is read as the root of its text and its components. -/
theorem parse_eq (s : Text) : parse s = ⟨rootOf s, components s⟩ := by
  have hparts : (pieces s).filter isName = components s := by
    rw [pieces_eq_splitOn, components]
    refine List.filter_congr fun piece _ => Bool.eq_iff_iff.2 ?_
    simp [isName]
  rw [parse, hparts]

theorem isRooted_iff : IsRooted s ↔ rootOf s ≠ .relative := by
  cases s with
  | nil => simp [rootOf, IsRooted]
  | cons x s =>
      by_cases hx : x = .char '/'
      · subst hx
        have hroot : rootOf (.char '/' :: s) ≠ .relative := by
          unfold rootOf
          split <;> simp_all
        simp [hroot, IsRooted]
      · simp [rootOf, IsRooted, hx]

theorem rootOf_eq_relative (h : ¬IsRooted s) : rootOf s = .relative := by
  rwa [isRooted_iff, ne_eq, Decidable.not_not] at h

/-- A path without a root is put below another one. -/
theorem parse_div_parse (base : Text) (h : ¬IsRooted s) :
    parse base / parse s = ⟨rootOf base, components base ++ components s⟩ := by
  have hrelative : (parse s).isAbsolute = false := by
    rw [parse_eq, isAbsolute, rootOf_eq_relative h]
    rfl
  change (parse base).join (parse s) = _
  rw [join, hrelative, parse_eq, parse_eq]
  rfl

/-! ## Writing -/

theorem rootOf_text (h : p.HasNames) : rootOf p.text = p.root := by
  have hroot := congrArg Path.root (parse_text h)
  rwa [parse_eq] at hroot

theorem components_text (h : p.HasNames) : components p.text = p.parts := by
  have hparts := congrArg Path.parts (parse_text h)
  rwa [parse_eq] at hparts

theorem text_inj (hp : p.HasNames) (hq : q.HasNames) : p.text = q.text ↔ p = q := by
  constructor
  · intro h
    rw [← parse_text hp, ← parse_text hq, h]
  · rintro rfl
    rfl

/-! ## Texts in a row -/

theorem components_append_slash (front back : Text) :
    components (front ++ .char '/' :: back) = components front ++ components back := by
  have hpieces : (front ++ .char '/' :: back).splitOn (.char '/') =
      front.splitOn (.char '/') ++ back.splitOn (.char '/') := by
    simp only [List.splitOn_eq_splitOnP]
    exact List.splitOnP_append_cons front back (beq_self_eq_true _)
  rw [components, hpieces, List.filter_append]
  rfl

/-- Slashes alone have no components. -/
theorem components_of_slashes (h : ∀ x ∈ s, x = .char '/') : components s = [] := by
  induction s with
  | nil => rfl
  | cons x s ih =>
      obtain ⟨rfl, hs⟩ := List.forall_mem_cons.1 h
      exact (components_append_slash [] s).trans (ih hs)

/-- What stands behind a component has no part in the root. -/
theorem rootOf_append (h : components front ≠ []) (back : Text) :
    rootOf (front ++ back) = rootOf front := by
  have hslashes : ¬∀ x ∈ front, x = .char '/' := fun hall => h (components_of_slashes hall)
  -- Only the first three code points are looked at, and less of them only up to another one than
  -- a slash.
  match front with
  | [] => exact absurd rfl h
  | [a] =>
      have ha : a ≠ .char '/' := by simpa using hslashes
      simp [rootOf, ha]
  | [a, b] =>
      by_cases ha : a = .char '/'
      · have hb : b ≠ .char '/' := by simpa [ha] using hslashes
        simp [rootOf, ha, hb]
      · simp [rootOf, ha]
  | a :: b :: c :: rest =>
      by_cases ha : a = .char '/' <;> by_cases hb : b = .char '/' <;>
        by_cases hc : c = .char '/' <;> simp [rootOf, ha, hb, hc]

/-- A path may be written with a text behind a slash, if there is a component in front. -/
theorem parse_append_slash (h : components front ≠ []) (back : Text) :
    parse (front ++ .char '/' :: back) = ⟨rootOf front, components front ++ components back⟩ := by
  rw [parse_eq, components_append_slash, rootOf_append h]

/-! ## Other spellings -/

/-- A text is spelled in another way, behind its first component. -/
inductive Respells : Text → Text → Prop where
  /-- A slash is repeated. -/
  | slash {front : Text} (h : components front ≠ []) (back : Text) :
      Respells (front ++ "/" ++ back) (front ++ "//" ++ back)
  /-- A `.` is put between two slashes. -/
  | dot {front : Text} (h : components front ≠ []) (back : Text) :
      Respells (front ++ "/" ++ back) (front ++ "/./" ++ back)
  /-- The text ends with a slash. -/
  | slashAtEnd {s : Text} (h : components s ≠ []) : Respells s (s ++ "/")
  /-- The text ends with a `.`. -/
  | dotAtEnd {s : Text} (h : components s ≠ []) : Respells s (s ++ "/.")

/-- Two texts come from each other by other spellings. -/
def Respelled : Text → Text → Prop := Relation.EqvGen Respells

/-- What stands between a component and a slash may be left out if it has no component. -/
theorem parse_append_between (h : components front ≠ []) {between : Text}
    (hbetween : components between = []) (back : Text) :
    parse (front ++ .char '/' :: (between ++ .char '/' :: back)) =
      parse (front ++ .char '/' :: back) := by
  rw [parse_append_slash h, parse_append_slash h, components_append_slash, hbetween,
    List.nil_append]

/-- So may what stands at the end. -/
theorem parse_append_end (h : components s ≠ []) {rest : Text} (hrest : components rest = []) :
    parse (s ++ .char '/' :: rest) = parse s := by
  rw [parse_append_slash h, hrest, List.append_nil, parse_eq]

theorem Respells.parse_eq (h : Respells s t) : parse t = parse s := by
  have hempty : components [] = [] := rfl
  have hdot : components (Text.ofString ".") = [] := rfl
  cases h with
  | slash h back =>
      rw [List.append_assoc, List.append_assoc]
      exact parse_append_between h hempty back
  | dot h back =>
      rw [List.append_assoc, List.append_assoc]
      exact parse_append_between h hdot back
  | slashAtEnd h => exact parse_append_end h hempty
  | dotAtEnd h => exact parse_append_end h hdot

/-- Other spellings, whatever their number, are read as one path. -/
theorem Respelled.parse_eq (h : Respelled s t) : parse t = parse s := by
  induction h with
  | rel s t h => exact h.parse_eq
  | refl s => rfl
  | symm s t _ ih => exact ih.symm
  | trans s t u _ _ ih ih' => exact ih'.trans ih

end Bindery.Path
