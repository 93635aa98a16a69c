import Bindery.Proofs.FileSystem.Taken

/-!
# Links on the way

`FileSystem.link?` is the target of the link that a way leads to.  A resolution looks at nothing
else of a tree (`resolveNames_cons`).  With names that the system takes it goes on in one of
four ways: a name stays, climbs, goes down, or is that of a link.
-/

namespace Bindery

/-- The target of an entry, if it is a link. -/
def Entry.target? : Entry → Option Text
  | .link target => some target
  | _ => none

namespace FileSystem

variable {fs : FileSystem} {follow : Way → Way → Text → Except Obstacle Way} {way : Way}
  {name : Text} {names : List Text}

/-- The target of the link that a way leads to, if the system finds a link there. -/
def link? (fs : FileSystem) (way : Way) : Option Text :=
  if fs.isHidden way then none else (fs.entry? way.place.reverse).bind Entry.target?

theorem linkCount_eq (fs : FileSystem) :
    fs.linkCount = (fs.entries.filter fun e => e.2.target?.isSome).length := by
  unfold linkCount
  congr 2
  funext e
  cases e.2 <;> rfl

/-- The name keeps a way where it is. -/
def Stays (name : Text) : Prop := name = [] ∨ name = Text.ofString "."

/-- The name takes a way to the parent. -/
def Climbs (name : Text) : Prop := name = Text.ofString ".."

instance (name : Text) : Decidable (Stays name) := inferInstanceAs (Decidable (_ ∨ _))

instance (name : Text) : Decidable (Climbs name) := inferInstanceAs (Decidable (_ = _))

/-- The name is looked up in a directory. -/
def GoesDown (name : Text) : Prop := ¬Stays name ∧ ¬Climbs name

instance (name : Text) : Decidable (GoesDown name) := inferInstanceAs (Decidable (_ ∧ _))

/-- A resolution looks for the link at the end of a way, and at nothing else of a tree. -/
theorem resolveNames_cons (fs : FileSystem) (follow : Way → Way → Text → Except Obstacle Way)
    (way : Way) (name : Text) (names : List Text) :
    fs.resolveNames follow way (name :: names) =
      if Stays name then fs.resolveNames follow way names
      else if Climbs name then fs.resolveNames follow way.up names
      else
        match if (Text.encodeFault? name).isSome || name.contains '\x00' then
            pathFault? (way.down name).path.text else none with
        | some fault => .error (.refused fault)
        | none =>
            match fs.link? (way.down name) with
            | some target =>
                match follow way (way.down name) target with
                | .ok way => fs.resolveNames follow way names
                | .error obstacle => .error (obstacle.behind names)
            | none => fs.resolveNames follow (way.down name) names := by
  have hstays : (name == Text.ofString "" || name == Text.ofString ".") = true ↔ Stays name := by
    rw [Bool.or_eq_true, beq_iff_eq, beq_iff_eq]
    rfl
  have hclimbs : (name == Text.ofString "..") = true ↔ Climbs name := by
    rw [beq_iff_eq]
    rfl
  rw [resolveNames]
  simp only [hstays, hclimbs]
  split
  · rfl
  · split
    · rfl
    · generalize (if (Text.encodeFault? name).isSome || name.contains '\x00' then
        pathFault? (way.down name).path.text else none) = refused
      cases refused with
      | some fault => rfl
      | none =>
          unfold link?
          cases fs.isHidden (way.down name) with
          | true => rfl
          | false =>
              simp only [Bool.false_eq_true, if_false]
              cases fs.entry? (way.down name).place.reverse with
              | none => rfl
              | some entry => cases entry <;> rfl

theorem resolveNames_of_stays (h : Stays name) :
    fs.resolveNames follow way (name :: names) = fs.resolveNames follow way names := by
  rw [resolveNames_cons, if_pos h]

theorem resolveNames_of_climbs (h : Climbs name) :
    fs.resolveNames follow way (name :: names) = fs.resolveNames follow way.up names := by
  have hstays : ¬Stays name := by
    rw [Climbs] at h
    subst h
    decide
  rw [resolveNames_cons, if_neg hstays, if_pos h]

/-- A name that the system takes is looked up. -/
theorem resolveNames_of_goesDown (h : GoesDown name) (htaken : pathFault? name = none) :
    fs.resolveNames follow way (name :: names) =
      match fs.link? (way.down name) with
      | some target =>
          match follow way (way.down name) target with
          | .ok way => fs.resolveNames follow way names
          | .error obstacle => .error (obstacle.behind names)
      | none => fs.resolveNames follow (way.down name) names := by
  have hgood : ((Text.encodeFault? name).isSome || name.contains '\x00') = false := by
    unfold pathFault? at htaken
    cases hfault : Text.encodeFault? name with
    | some fault =>
        rw [hfault] at htaken
        cases htaken
    | none =>
        rw [hfault] at htaken
        simpa using htaken
  rw [resolveNames_cons, if_neg h.1, if_neg h.2, hgood]
  rfl

/-- A resolution stops at a name that the system does not take. -/
theorem resolveNames_of_refused (h : GoesDown name) (hrefused : pathFault? name ≠ none) :
    ∃ fault, fs.resolveNames follow way (name :: names) = .error (.refused fault) := by
  rw [resolveNames_cons, if_neg h.1, if_neg h.2]
  split
  · next fault _ => exact ⟨fault, rfl⟩
  · next hchecked => exact absurd (pathFault?_of_checked hchecked) hrefused

end FileSystem
end Bindery
