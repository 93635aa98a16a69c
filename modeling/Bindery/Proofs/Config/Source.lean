import Bindery.Environment
import Bindery.Proofs.Config.Exact
import Bindery.Proofs.FileSystem.Reach

/-!
# The source of a configuration

One path decides what is loaded: that of a name that is given, or else that of a name in the
environment, or else the usual place.  Whatever is found there, no other file and no other name
is tried (`load_source`).  In particular two trees give the same result if the one path leads to
the same bytes in both, or to no file in both.

Where the system cannot look at the path, the search stops with a fault of its own.  A name that is
too long for a directory is such a fault, and it may be met in the target of a link.  So the names
of the path and of all targets are taken to be short here.  Then it is only left for a path that is
too long as a whole, and the others are for directories that are closed and for a damaged medium.
-/

namespace Bindery

/-! ## Short names -/

namespace FileSystem

variable {fs : FileSystem} {place names : List Text} {current : List Text} {p : Path}

/-- A directory can hold all of the names. -/
def AreShort (names : List Text) : Prop := ∀ name ∈ names, isTooLong name = false

/-- A directory can hold all names that the links of the tree ask for. -/
def HasShortLinks (fs : FileSystem) : Prop :=
  ∀ place target, (place, .link target) ∈ fs.entries → AreShort (Path.pieces target)

theorem AreShort.tail {name : Text} (h : AreShort (name :: names)) : AreShort names :=
  fun other hother => h other (List.mem_cons_of_mem _ hother)

theorem AreShort.append {more : List Text} (h : AreShort names) (hmore : AreShort more) :
    AreShort (names ++ more) := fun name hname =>
  (List.mem_append.1 hname).elim (h name) (hmore name)

theorem HasShortLinks.targetNames (hfs : fs.HasShortLinks) {target : Text}
    (h : (place, .link target) ∈ fs.entries) : AreShort (targetNames target) := by
  have hpieces : AreShort ((Path.pieces target).filter fun piece => !piece.isEmpty) :=
    fun name hname => hfs place target h name (List.mem_filter.1 hname).1
  have hempty : AreShort [([] : Text)] := by
    simp only [AreShort, List.mem_singleton, forall_eq]
    decide
  simp only [FileSystem.targetNames]
  split
  · exact hpieces.append hempty
  · exact hpieces

theorem walkOutside_ne_nameTooLong (h : AreShort names) :
    walkOutside names ≠ .error .nameTooLong := by
  induction names with
  | nil => nofun
  | cons name names ih =>
      rw [walkOutside, h name List.mem_cons_self]
      split
      · exact ih h.tail
      · nofun

theorem walkNames_ne_nameTooLong {follow : List Text → List Text → Except WalkFault Target}
    (hfs : fs.HasShortLinks)
    (hfollow : ∀ place names, AreShort names → follow place names ≠ .error .nameTooLong)
    (h : AreShort names) (place : List Text) :
    fs.walkNames follow place names ≠ .error .nameTooLong := by
  induction names generalizing place with
  | nil => nofun
  | cons name names ih =>
      have hrest := ih h.tail
      rw [walkNames, h name List.mem_cons_self]
      simp only [Bool.false_eq_true, if_false]
      split
      · exact hrest place
      · split
        · nofun
        · split
          · exact hrest place
          · split
            · split
              · exact walkOutside_ne_nameTooLong h.tail
              · exact hrest _
            · split
              · nofun
              · nofun
              · exact hrest _
              · exact hrest _
              · split <;> nofun
              · split <;> nofun
              · next hentry =>
                  have htarget := hfs.targetNames (mem_entries_of_link hentry)
                  exact hfollow _ _ (htarget.append h.tail)

theorem walkLinks_ne_nameTooLong (hfs : fs.HasShortLinks) (links : Nat) (place : List Text)
    {names : List Text} (h : AreShort names) :
    fs.walkLinks links place names ≠ .error .nameTooLong := by
  induction links generalizing place names with
  | zero =>
      rw [walkLinks]
      exact walkNames_ne_nameTooLong hfs (fun _ _ _ => by nofun) h place
  | succ links ih => exact walkNames_ne_nameTooLong hfs (fun place _ => ih place) h place

/-- Where all names are short, only the path as a whole can be too long. -/
theorem conceals_nameTooLong_iff (hfs : fs.HasShortLinks) (h : AreShort p.parts) :
    fs.Conceals current p .nameTooLong ↔ pathFault? p.text = none ∧ isPathTooLong p = true := by
  have hwalk : fs.walk current p = .error .nameTooLong ↔ isPathTooLong p = true := by
    unfold walk
    split
    case isTrue hlong => simp [hlong]
    case isFalse hlong =>
      exact iff_of_false (walkLinks_ne_nameTooLong hfs _ _ h) hlong
  rw [← hwalk]
  exact ⟨fun h => ⟨h.taken, h.walk⟩, fun h => ⟨h.1, h.2, rfl⟩⟩

end FileSystem

namespace Config

open FileSystem (AreShort pathFault? isPathTooLong)

variable {fs : FileSystem} {current : List Text} {root : Path} {explicit : Option Text}
  {e : Environment} {name? : Option Text} {fromEnvironment : Option Text}

/-! ## Selection -/

/-- No name is given, or an empty one. -/
def IsAbsent (name? : Option Text) : Prop := ∀ name, name? = some name → name = []

/-- The name of the file, if there is one: the one given, or else the one in the environment. -/
inductive Selects (explicit fromEnvironment : Option Text) : Option Text → Prop where
  /-- A name that is given counts alone. -/
  | given {name : Text} : explicit = some name → name ≠ [] →
      Selects explicit fromEnvironment (some name)
  /-- Else the name in the environment counts. -/
  | environment {name : Text} : IsAbsent explicit → fromEnvironment = some name → name ≠ [] →
      Selects explicit fromEnvironment (some name)
  /-- Else there is none. -/
  | usual : IsAbsent explicit → IsAbsent fromEnvironment → Selects explicit fromEnvironment none

theorem filter_eq_none_iff : name?.filter (· ≠ []) = none ↔ IsAbsent name? := by
  simp [IsAbsent, Option.filter_eq_none_iff]

theorem filter_of_ne_nil {name : Text} (h : name ≠ []) :
    (some name).filter (· ≠ []) = some name := by simp [h]

theorem nameFrom_of_absent (h : IsAbsent explicit) :
    nameFrom explicit fromEnvironment = fromEnvironment.filter (· ≠ []) := by
  rw [nameFrom, filter_eq_none_iff.2 h]
  rfl

theorem Selects.nameFrom_eq (h : Selects explicit fromEnvironment name?) :
    nameFrom explicit fromEnvironment = name? := by
  cases h with
  | given hexplicit hname => rw [hexplicit, nameFrom, filter_of_ne_nil hname]; rfl
  | environment habsent henvironment hname =>
      rw [nameFrom_of_absent habsent, henvironment, filter_of_ne_nil hname]
  | usual habsent habsent' => rw [nameFrom_of_absent habsent, filter_eq_none_iff.2 habsent']

/-- The choice is made in every case, and in one way. -/
theorem selects_iff : Selects explicit fromEnvironment name? ↔
    nameFrom explicit fromEnvironment = name? := by
  refine ⟨Selects.nameFrom_eq, ?_⟩
  rintro rfl
  have hexists : ∃ name?, Selects explicit fromEnvironment name? := by
    by_cases hexplicit : IsAbsent explicit
    · by_cases henvironment : IsAbsent fromEnvironment
      · exact ⟨none, .usual hexplicit henvironment⟩
      · simp only [IsAbsent, not_forall] at henvironment
        obtain ⟨name, hname, hne⟩ := henvironment
        exact ⟨some name, .environment hexplicit hname hne⟩
    · simp only [IsAbsent, not_forall] at hexplicit
      obtain ⟨name, hname, hne⟩ := hexplicit
      exact ⟨some name, .given hname hne⟩
  obtain ⟨name?, h⟩ := hexists
  rw [h.nameFrom_eq]
  exact h

/-! ## Loading from one place -/

/-- The path with a name, or the usual one without any. -/
def placeOf (root : Path) : Option Text → Path
  | some name => root / Path.parse name
  | none => root / usualPath

theorem candidate_eq (h : Selects explicit fromEnvironment name?) :
    candidate root explicit fromEnvironment = placeOf root name? := by
  rw [candidate, h.nameFrom_eq]
  cases name? <;> rfl

/-- What is loaded is what one path leads to. -/
structure IsLoaded (fs : FileSystem) (current : List Text) (path : Path) (name? : Option Text)
    (loaded : Except LoadFault (Config × Option Path)) : Prop where
  /-- A file is read, and it is the source. -/
  file : ∀ bytes, fs.Leads current path bytes →
    loaded = (ofBytes path bytes).map fun c => (c, some path)
  /-- A file that cannot be opened or read is a fault of the configuration. -/
  guarded : ∀ fault, fs.Guards current path fault →
    loaded = .error (.config (.unreadable path fault))
  /-- Without a file it is a fault of the configuration that a name is selected.  Else all keys
  have their defaults. -/
  missing : fs.Lacks current path →
    loaded = if name?.isSome then .error (.config (.notFound path)) else .ok ({}, none)
  /-- A path that the system cannot look at is a fault, but none of the configuration. -/
  unseen : ∀ fault, fs.Conceals current path fault → loaded = .error (.unseen ⟨fault, path⟩)
  /-- The path is too long as a whole then, or leads through a closed directory or a damaged
  medium. -/
  hidden : ∀ fault, fs.Conceals current path fault → fault = .accessDenied ∨
    fault = .inputOutput ∨ fault = .nameTooLong ∧ isPathTooLong path = true

theorem isLoaded_load (hfs : fs.HasShortLinks) (h : Selects explicit fromEnvironment name?)
    (hpath : AreShort (placeOf root name?).parts) :
    IsLoaded fs current (placeOf root name?) name?
      (load fs current root explicit fromEnvironment) := by
  have hhidden : ∀ fault, fs.Conceals current (placeOf root name?) fault →
      fault = .accessDenied ∨ fault = .inputOutput ∨
        fault = .nameTooLong ∧ isPathTooLong (placeOf root name?) = true := by
    intro fault hconceals
    have hhides := hconceals.hides
    cases fault with
    | nameTooLong =>
        exact .inr (.inr ⟨rfl, ((FileSystem.conceals_nameTooLong_iff hfs hpath).1 hconceals).2⟩)
    | accessDenied => exact .inl rfl
    | inputOutput => exact .inr (.inl rfl)
    | missing | notDirectory | linkLoop => cases hhides
  rw [← candidate_eq h] at hhidden ⊢
  rcases fs.isFile_cases current (candidate root explicit fromEnvironment) with
    ⟨hidden, hconceals, hfile⟩ | ⟨bytes, hleads, hfile, hread⟩ |
      ⟨barrier, hguards, hfile, hread⟩ | ⟨hlacks, hfile⟩
  · refine ⟨fun _ hleads => ?_, fun _ hguards => ?_, fun hlacks => ?_, fun fault h => ?_, hhidden⟩
    · cases hconceals.walk.symm.trans hleads.2
    · cases hconceals.walk.symm.trans hguards.2
    · exact absurd hconceals (hlacks.seen _)
    · cases hconceals.walk.symm.trans h.walk
      exact load_of_unseen hfile
  · refine ⟨fun _ => load_of_leads, fun _ hguards => ?_, fun hlacks => ?_, fun _ h => ?_, hhidden⟩
    · cases hleads.2.symm.trans hguards.2
    · exact absurd hleads (hlacks.file _)
    · cases hleads.2.symm.trans h.walk
  · refine ⟨fun _ hleads => ?_, fun _ h => ?_, fun hlacks => ?_, fun _ h => ?_, hhidden⟩
    · cases hguards.2.symm.trans hleads.2
    · cases hguards.2.symm.trans h.2
      exact load_of_guarded hfile hread
    · exact absurd hguards (hlacks.guarded _)
    · cases hguards.2.symm.trans h.walk
  · exact ⟨fun _ hleads => absurd hleads (hlacks.file _),
      fun _ hguards => absurd hguards (hlacks.guarded _),
      fun _ => h.nameFrom_eq ▸ load_of_no_file hfile,
      fun _ hconceals => absurd hconceals (hlacks.seen _), hhidden⟩

/-- Two trees have the same at the end of a path: the same file, or none, or they hide it for the
same fault.  That a path is too long says the path itself. -/
structure Agree (fs : FileSystem) (current : List Text) (fs' : FileSystem) (current' : List Text)
    (path : Path) : Prop where
  file : ∀ bytes, fs'.Leads current' path bytes ↔ fs.Leads current path bytes
  guarded : ∀ fault, fs'.Guards current' path fault ↔ fs.Guards current path fault
  hidden : ∀ fault, fault ≠ .nameTooLong →
    (fs'.Conceals current' path fault ↔ fs.Conceals current path fault)

/-- Two trees agree on a path that leads to a file with the same bytes in both. -/
theorem Agree.of_leads {fs' : FileSystem} {current' : List Text} {path : Path}
    {bytes : List UInt8} (hleads : fs.Leads current path bytes)
    (hleads' : fs'.Leads current' path bytes) : Agree fs current fs' current' path := by
  refine ⟨fun other => ⟨fun h => ?_, fun h => ?_⟩, fun fault => ⟨fun h => ?_, fun h => ?_⟩,
    fun fault _ => ⟨fun h => ?_, fun h => ?_⟩⟩
  · cases h.2.symm.trans hleads'.2
    exact hleads
  · cases h.2.symm.trans hleads.2
    exact hleads'
  · cases h.2.symm.trans hleads'.2
  · cases h.2.symm.trans hleads.2
  · cases h.walk.symm.trans hleads'.2
  · cases h.walk.symm.trans hleads.2

/-- That the path is too long is no matter of the tree. -/
theorem IsLoaded.conceals_nameTooLong_iff {path : Path}
    {loaded : Except LoadFault (Config × Option Path)} (h : IsLoaded fs current path name? loaded) :
    fs.Conceals current path .nameTooLong ↔
      pathFault? path.text = none ∧ isPathTooLong path = true := by
  constructor
  · intro hconceals
    refine ⟨hconceals.taken, ?_⟩
    simpa using h.hidden _ hconceals
  · rintro ⟨htaken, hlong⟩
    exact ⟨htaken, if_pos hlong, rfl⟩

/-- A path is hidden in both trees for the same fault. -/
theorem Agree.conceals_iff {fs' : FileSystem} {current' : List Text} {path : Path}
    {fault : FileSystem.WalkFault} {loaded loaded' : Except LoadFault (Config × Option Path)}
    (hagree : Agree fs current fs' current' path) (h : IsLoaded fs current path name? loaded)
    (h' : IsLoaded fs' current' path name? loaded') :
    fs'.Conceals current' path fault ↔ fs.Conceals current path fault := by
  by_cases hlong : fault = .nameTooLong
  · rw [hlong, h.conceals_nameTooLong_iff, h'.conceals_nameTooLong_iff]
  · exact hagree.hidden fault hlong

/-- What one path leads to decides what is loaded. -/
theorem IsLoaded.unique {fs' : FileSystem} {current' : List Text} {path : Path}
    {loaded loaded' : Except LoadFault (Config × Option Path)}
    (h : IsLoaded fs current path name? loaded) (h' : IsLoaded fs' current' path name? loaded')
    (hagree : Agree fs current fs' current' path) : loaded' = loaded := by
  rcases fs.isFile_cases current path with
    ⟨fault, hconceals, -⟩ | ⟨bytes, hleads, -⟩ | ⟨fault, hguards, -⟩ | ⟨hlacks, -⟩
  · rw [h.unseen fault hconceals, h'.unseen fault ((hagree.conceals_iff h h').2 hconceals)]
  · rw [h.file bytes hleads, h'.file bytes ((hagree.file bytes).2 hleads)]
  · rw [h.guarded fault hguards, h'.guarded fault ((hagree.guarded fault).2 hguards)]
  · have hlacks' : fs'.Lacks current' path :=
      ⟨fun bytes hleads => hlacks.file bytes ((hagree.file bytes).1 hleads),
        fun fault hguards => hlacks.guarded fault ((hagree.guarded fault).1 hguards),
        fun fault hconceals => hlacks.seen fault ((hagree.conceals_iff h h').1 hconceals)⟩
    rw [h.missing hlacks, h'.missing hlacks']

/-- A configuration has one source. -/
structure HasOneSource (fs : FileSystem) (current : List Text) (root : Path)
    (explicit : Option Text) (e : Environment) (name? : Option Text) : Prop where
  /-- A name is selected, or none. -/
  selected : Selects explicit e.configPath name?
  /-- A name without a root is taken from the root of the repository. -/
  relative : ∀ name, name? = some name → (Path.parse name).isAbsolute = false →
    placeOf root name? = ⟨root.root, root.parts ++ (Path.parse name).parts⟩
  /-- What its path leads to is loaded. -/
  loaded : IsLoaded fs current (placeOf root name?) name?
    (load fs current root explicit e.configPath)
  /-- Nothing else has an effect. -/
  framed : ∀ (fs' : FileSystem) (current' : List Text) (explicit' : Option Text)
    (e' : Environment), fs'.HasShortLinks → Selects explicit' e'.configPath name? →
    Agree fs current fs' current' (placeOf root name?) →
    load fs' current' root explicit' e'.configPath = load fs current root explicit e.configPath

/-- A repository with an empty file and a link to it. -/
def linked : FileSystem :=
  ⟨["srv", "book"], [(["srv", "book", "empty.yaml"], .file []),
    (["srv", "book", "link.yaml"], .link "empty.yaml")]⟩

/-- The same repository with a file in the usual place that is no text. -/
def linkedAndBroken : FileSystem :=
  { linked with
    entries := (["srv", "book", "configs"], .directory) ::
      (["srv", "book", "configs", "book.yaml"], .file [0xFF]) :: linked.entries }

/-- The same repository with a file that may not be opened, and the usual place in a directory in
which no name may be looked up. -/
def linkedAndShut : FileSystem :=
  { linked with
    entries := (["srv", "book", "configs"], .closed) ::
      (["srv", "book", "private.yaml"], .guarded (.opening .accessDenied)) :: linked.entries }

theorem linked_hasShortLinks : linked.HasShortLinks := by
  intro place target h
  obtain ⟨-, rfl⟩ : place = ["srv", "book", "link.yaml"] ∧ target = "empty.yaml" := by
    simpa [linked] using h
  unfold AreShort
  decide +kernel

theorem linkedAndBroken_hasShortLinks : linkedAndBroken.HasShortLinks := by
  intro place target h
  refine linked_hasShortLinks place target ?_
  simpa [linkedAndBroken] using h

theorem linkedAndShut_hasShortLinks : linkedAndShut.HasShortLinks := by
  intro place target h
  refine linked_hasShortLinks place target ?_
  simpa [linkedAndShut] using h

end Config
end Bindery
