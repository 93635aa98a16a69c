import Bindery.Proofs.FileSystem.Links

/-!
# Trees without the bytes of their files

What is written in a file has no part in where a path leads.  `FileSystem.withoutBytes` is a tree
with all its files empty.  A walk in it leads to the same things, but for the bytes of a file
(`walk_withoutBytes`), and a path has the same resolution (`resolve_withoutBytes`).
-/

namespace Bindery

/-- An entry with the bytes of a file left out. -/
def Entry.withoutBytes : Entry → Entry
  | .file _ => .file []
  | entry => entry

namespace FileSystem

/-- What a path leads to, with the bytes of a file left out. -/
def Target.withoutBytes : Target → Target
  | .file _ => .file []
  | target => target

/-- The tree with all files empty. -/
def withoutBytes (fs : FileSystem) : FileSystem :=
  { fs with entries := fs.entries.map fun e => (e.1, e.2.withoutBytes) }

variable (fs : FileSystem)

theorem lookup_withoutBytes (entries : List (List Text × Entry)) (place : List Text) :
    (entries.map fun e => (e.1, e.2.withoutBytes)).lookup place =
      (entries.lookup place).map Entry.withoutBytes := by
  induction entries with
  | nil => rfl
  | cons e entries ih =>
      obtain ⟨key, entry⟩ := e
      simp only [List.map_cons, List.lookup_cons, ih]
      cases place == key <;> rfl

theorem entry?_withoutBytes (place : List Text) :
    fs.withoutBytes.entry? place = (fs.entry? place).map Entry.withoutBytes := by
  have hmount : fs.withoutBytes.mount = fs.mount := rfl
  simp only [ entry?, hmount]
  split
  · rfl
  · exact lookup_withoutBytes fs.entries place

theorem target?_withoutBytes (entry : Entry) : entry.withoutBytes.target? = entry.target? := by
  cases entry <;> rfl

theorem linkCount_withoutBytes : fs.withoutBytes.linkCount = fs.linkCount := by
  rw [linkCount_eq, linkCount_eq]
  simp [withoutBytes, List.filter_map, Function.comp_def, target?_withoutBytes]

theorem eq_closed_withoutBytes (entry : Entry) :
    (entry.withoutBytes == .closed) = (entry == .closed) := by
  cases entry <;> rfl

theorem isClosed_withoutBytes (place : List Text) :
    fs.withoutBytes.isClosed place = fs.isClosed place := by
  rw [isClosed, isClosed, entry?_withoutBytes]
  cases fs.entry? place with
  | none => rfl
  | some entry => exact eq_closed_withoutBytes entry

/-! ## Walks -/

/-- Names lead to the same thing if the targets of links do. -/
theorem walkNames_withoutBytes {follow follow' : List Text → List Text → Except WalkFault Target}
    (hfollow : ∀ place names, follow' place names = (follow place names).map Target.withoutBytes)
    (place names : List Text) :
    walkNames fs.withoutBytes follow' place names =
      (walkNames fs follow place names).map Target.withoutBytes := by
  have houtside : ∀ names, (walkOutside names).map Target.withoutBytes = walkOutside names := by
    intro names
    induction names with
    | nil => rfl
    | cons name names ih =>
        unfold walkOutside
        split
        · exact ih
        · split <;> rfl
  induction names generalizing place with
  | nil => rfl
  | cons name names ih =>
      have hmount : fs.withoutBytes.mount = fs.mount := rfl
      unfold walkNames
      rw [entry?_withoutBytes, isClosed_withoutBytes, hmount]
      by_cases hempty : (name == Text.ofString "") = true
      · rw [if_pos hempty, if_pos hempty]
        exact ih place
      rw [if_neg hempty, if_neg hempty]
      split
      · rfl
      split
      · exact ih place
      split
      · split
        · exact (houtside names).symm
        · exact ih place.dropLast
      split
      · rfl
      cases fs.entry? (place ++ [name]) with
      | none => rfl
      | some entry =>
          cases entry with
          | directory | closed => exact ih (place ++ [name])
          | damaged => rfl
          | file bytes | guarded fault => cases names <;> rfl
          | link target => exact hfollow _ _

theorem walkLinks_withoutBytes (links : Nat) (place names : List Text) :
    walkLinks fs.withoutBytes links place names =
      (walkLinks fs links place names).map Target.withoutBytes := by
  induction links generalizing place names with
  | zero =>
      have hloop : ∀ place names : List Text, (.error .linkLoop : Except WalkFault Target) =
          (Except.error WalkFault.linkLoop).map Target.withoutBytes := fun _ _ => rfl
      exact fs.walkNames_withoutBytes hloop place names
  | succ links ih => exact fs.walkNames_withoutBytes ih place names

theorem walk_withoutBytes (current : List Text) (p : Path) :
    fs.withoutBytes.walk current p = (fs.walk current p).map Target.withoutBytes := by
  unfold walk
  split
  · rfl
  · exact fs.walkLinks_withoutBytes mostLinks _ p.parts

/-! ## Resolutions -/

theorem isHidden_withoutBytes (way : Way) : fs.withoutBytes.isHidden way = fs.isHidden way := by
  have hany : (fs.withoutBytes.entries.any fun e => e.2 == .closed) =
      fs.entries.any fun e => e.2 == .closed := by
    rw [withoutBytes, List.any_map]
    exact congrArg _ (funext fun e => eq_closed_withoutBytes e.2)
  have hbarred (place names : List Text) :
      fs.withoutBytes.isBarred place names = fs.isBarred place names := by
    induction names generalizing place with
    | nil => rfl
    | cons name names ih => simp only [isBarred, isClosed_withoutBytes, ih]
  rw [isHidden, isHidden, hany, hbarred]

theorem link?_withoutBytes (way : Way) : fs.withoutBytes.link? way = fs.link? way := by
  unfold link?
  rw [entry?_withoutBytes, isHidden_withoutBytes]
  split
  · rfl
  · cases fs.entry? way.place.reverse with
    | none => rfl
    | some entry => exact target?_withoutBytes entry

theorem resolveNames_withoutBytes (follow : Way → Way → Text → Except Obstacle Way) (way : Way)
    (names : List Text) :
    resolveNames fs.withoutBytes follow way names = resolveNames fs follow way names := by
  induction names generalizing way with
  | nil => rfl
  | cons name names ih => simp only [resolveNames_cons, link?_withoutBytes, ih]

theorem resolveLink_withoutBytes (depth : Nat) :
    resolveLink fs.withoutBytes depth = resolveLink fs depth := by
  induction depth with
  | zero => rfl
  | succ depth ih =>
      funext active above link target
      simp only [resolveLink, ih, resolveNames_withoutBytes]

theorem inspected_withoutBytes (current : List Text) (path : Path) :
    fs.withoutBytes.inspected current path = fs.inspected current path := by
  unfold inspected
  rw [walk_withoutBytes]
  rcases fs.walk current path with (_ | _ | _ | _ | _ | _) | _ <;> rfl

theorem resolve_withoutBytes (current : List Text) (p : Path) :
    fs.withoutBytes.resolve current p = fs.resolve current p := by
  simp only [resolve, linkCount_withoutBytes, resolveLink_withoutBytes, resolveNames_withoutBytes,
    inspected_withoutBytes]

end FileSystem
end Bindery
