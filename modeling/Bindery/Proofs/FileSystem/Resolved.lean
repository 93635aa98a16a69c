import Bindery.Proofs.FileSystem.Clear

/-!
# Resolved paths

Where no link is met while it is itself being followed, a path from the root directory resolves
to where its names lead, which is a clear place (`IsNavigable.exists_resolve`).  A resolved path
resolves to itself (`IsNavigable.resolve_self`).  A path may be resolved before another one is put
below it (`IsNavigable.resolve_div`).
-/

namespace Bindery.FileSystem

variable {fs : FileSystem}

/-- A path straight down from the root directory, with no link on the way. -/
structure IsResolved (fs : FileSystem) (dir : Path) : Prop where
  root : dir.root = .single
  clear : fs.Clear dir.parts.reverse
  taken : AllTaken dir.parts

/-- Paths in the tree do not lead into a loop of links, for a process in a directory. -/
structure IsNavigable (fs : FileSystem) (current : List Text) : Prop where
  /-- No path meets a link while this is itself being followed. -/
  loopFree (p : Path) : p.HasNames → ¬fs.MeetsLoop [] (.start current p) p.parts
  /-- The system takes the targets of links. -/
  linksTaken (place : List Text) (target : Text) :
    fs.entry? place = some (.link target) → pathFault? target = none
  /-- The directory of the process is known by the way straight down to it. -/
  current : fs.IsResolved (.ofNames current)

variable {dir p q : Path} {current : List Text}

theorem IsResolved.hasNames (h : fs.IsResolved dir) : dir.HasNames := fun name hname =>
  h.clear.isPlain name (List.mem_reverse.2 hname)

theorem IsResolved.isAbsolute (h : fs.IsResolved dir) : dir.isAbsolute = true := by
  rw [Path.isAbsolute, h.root]
  rfl

theorem IsResolved.eq_ofNames (h : fs.IsResolved dir) : dir = .ofNames dir.parts := by
  obtain ⟨root, parts⟩ := dir
  cases h.root
  rfl

/-- The names of a resolved path lead to it. -/
theorem IsResolved.reaches (h : fs.IsResolved dir) :
    fs.Reaches .root dir.parts (.straight dir.parts.reverse) := by
  have hclear : fs.Clear (dir.parts.reverse ++ []) := by simpa using h.clear
  have hreach := reaches_straight hclear
  rw [List.append_nil] at hreach
  exact hreach

namespace IsNavigable

/-- What a path resolves to is a resolved path. -/
theorem isResolved_of_resolve (hfs : fs.IsNavigable current) (hp : p.HasNames)
    (hseen : p.isAbsolute = true ∨ ¬fs.Overlooks (.here current) p.parts)
    (h : fs.resolve current p = .ok dir) : fs.IsResolved dir := by
  have htaken := pathFault?_text.1 (pathFault?_of_resolve hfs.current.taken h)
  obtain ⟨last, hreach, rfl⟩ := reaches_of_resolve (hfs.loopFree p hp) h
  have hslash : ∀ name ∈ p.parts, .char '/' ∉ name := fun name hname => (hp name hname).noSlash
  refine ⟨rfl, ?_, htaken⟩
  rw [Path.ofNames, List.reverse_reverse]
  unfold Way.start at hreach
  split at hreach
  · exact (hreach.eq_straight hslash).1
  · next hrelative =>
      exact (hreach.isClear (.here hfs.current.clear) hslash (hseen.resolve_left hrelative)).clear

/-- A path from the root directory resolves to where its names lead. -/
theorem exists_resolve (hfs : fs.IsNavigable current) (hp : p.HasNames)
    (hroot : p.isAbsolute = true) (htaken : AllTaken p.parts) :
    ∃ place, fs.Reaches .root p.parts (.straight place) ∧
      fs.resolve current p = .ok (.ofNames place.reverse) := by
  obtain ⟨last, hreach, hresolve⟩ :=
    resolve_of_reaches hfs.current.taken hfs.linksTaken htaken (hfs.loopFree p hp)
  rw [Way.start, if_pos hroot] at hreach
  obtain ⟨hclear, hstraight⟩ := hreach.eq_straight fun name hname => (hp name hname).noSlash
  exact ⟨last.place, hstraight ▸ hreach, hresolve.trans (inspected_of_clear current hclear)⟩

/-- A resolved path resolves to itself. -/
theorem resolve_self (hfs : fs.IsNavigable current) (hdir : fs.IsResolved dir) :
    fs.resolve current dir = .ok dir := by
  obtain ⟨place, hreach, hresolve⟩ := hfs.exists_resolve hdir.hasNames hdir.isAbsolute hdir.taken
  have hplace : place = dir.parts.reverse := congrArg Way.place (hdir.reaches.unique hreach)
  rw [hresolve, hplace, List.reverse_reverse, ← hdir.eq_ofNames]

/-- A path below another one resolves as it does below the resolution of the other one. -/
theorem resolve_div (hfs : fs.IsNavigable current) (hp : p.HasNames) (hq : q.HasNames)
    (hroot : p.isAbsolute = true) (hptaken : AllTaken p.parts) (hqtaken : AllTaken q.parts)
    (h : fs.resolve current p = .ok dir) :
    fs.resolve current (dir / q) = fs.resolve current (p / q) := by
  have hdir := hfs.isResolved_of_resolve hp (.inl hroot) h
  obtain ⟨place, hreach, hresolve⟩ := hfs.exists_resolve hp hroot hptaken
  cases hresolve.symm.trans h
  cases hqroot : q.isAbsolute with
  | true =>
      have hjoin (base : Path) : base / q = q := if_pos hqroot
      rw [hjoin, hjoin]
  | false =>
      have hjoin (base : Path) : base / q = { base with parts := base.parts ++ q.parts } :=
        if_neg (by simp [hqroot])
      obtain ⟨place₁, hreach₁, hresolve₁⟩ := hfs.exists_resolve (hdir.hasNames.div hq)
        (by rw [hjoin]; exact hdir.isAbsolute) (allTaken_div hdir.taken hqtaken)
      obtain ⟨place₂, hreach₂, hresolve₂⟩ := hfs.exists_resolve (hp.div hq)
        (by rw [hjoin]; exact hroot) (allTaken_div hptaken hqtaken)
      rw [hjoin] at hreach₁ hreach₂
      -- Both ways go through the place of `p`.
      have hself : fs.Reaches .root place.reverse (.straight place) := by
        simpa [Path.ofNames] using hdir.reaches
      have hlast := (hreach.append (hself.rest hreach₁)).unique hreach₂
      cases hlast
      rw [hresolve₁, hresolve₂]

end IsNavigable

/-! ## Trees without links to links -/

/-- Names from a place, which has its last name first, pass no link. -/
def PassesNoLink (fs : FileSystem) : (place names : List Text) → Prop
  | _, [] => True
  | place, name :: names =>
      if Stays name then PassesNoLink fs place names
      else if Climbs name then PassesNoLink fs (place.drop 1) names
      else
        (fs.entry? (name :: place).reverse).bind Entry.target? = none ∧
          PassesNoLink fs (name :: place) names

instance PassesNoLink.decide (fs : FileSystem) :
    (place names : List Text) → Decidable (fs.PassesNoLink place names)
  | _, [] => inferInstanceAs (Decidable True)
  | place, name :: names =>
      have := PassesNoLink.decide fs place names
      have := PassesNoLink.decide fs (place.drop 1) names
      have := PassesNoLink.decide fs (name :: place) names
      inferInstanceAs (Decidable (ite _ _ (ite _ _ (_ ∧ _))))

/-- No link of the tree passes a link on the way to its end. -/
def IsShallow (fs : FileSystem) : Prop :=
  ∀ e ∈ fs.entries, ∀ target ∈ e.2.target?,
    fs.PassesNoLink (if isRooted target then [] else e.1.reverse.drop 1) (targetPieces target)

instance (fs : FileSystem) : Decidable fs.IsShallow :=
  inferInstanceAs (Decidable (∀ e ∈ fs.entries, ∀ target ∈ e.2.target?, _))

variable {way : Way} {names : List Text} {active : List (List Text)}

theorem PassesNoLink.not_meetsLoop (h : fs.PassesNoLink way.place names) :
    ¬fs.MeetsLoop active way names := by
  intro hmeets
  have hnone {way : Way} {name : Text} {names : List Text} (hname : GoesDown name)
      (h : fs.PassesNoLink way.place (name :: names)) :
      fs.link? (way.down name) = none ∧ fs.PassesNoLink (way.down name).place names := by
    rw [PassesNoLink, if_neg hname.1, if_neg hname.2] at h
    refine ⟨?_, h.2⟩
    unfold link?
    split
    · rfl
    · exact h.1
  induction hmeets with
  | here hname hbad => simpa [(hnone hname h).1] using hbad.2
  | stay hname hrest ih =>
      rw [PassesNoLink, if_pos hname] at h
      exact ih h
  | climb hname hrest ih =>
      rw [PassesNoLink, if_neg fun hstays => hstays.not_climbs hname, if_pos hname] at h
      exact ih h
  | down hname hlink hrest ih => exact ih (hnone hname h).2
  | within hname hlink htarget ih => simp [(hnone hname h).1] at hlink
  | behind hname hlink htarget hrest ih => simp [(hnone hname h).1] at hlink

/-- There is no loop without a link that leads to a link. -/
theorem IsShallow.not_meetsLoop (h : fs.IsShallow) : ¬fs.MeetsLoop [] way names := by
  intro hmeets
  generalize hactive : ([] : List (List Text)) = active at hmeets
  induction hmeets with
  | here hname hbad =>
      subst hactive
      exact absurd hbad.1 (List.not_mem_nil)
  | stay hname hrest ih => exact ih hactive
  | climb hname hrest ih => exact ih hactive
  | down hname hlink hrest ih => exact ih hactive
  | within hname hlink htarget ih =>
      have hentry := mem_entries_of_link (entry?_of_link? hlink)
      refine PassesNoLink.not_meetsLoop ?_ htarget
      have hpasses := h _ hentry _ rfl
      simp only [Way.down, List.reverse_reverse, List.drop_one, List.tail_cons] at hpasses
      unfold Way.base
      split
      · next hrooted => rwa [if_pos hrooted] at hpasses
      · next hrelative => rwa [if_neg hrelative] at hpasses
  | behind hname hlink htarget hrest ih => exact ih hactive

end Bindery.FileSystem
