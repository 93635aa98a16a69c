import Bindery.Proofs.FileSystem.Resolved
import Bindery.Proofs.Shell.Deed

/-!
# Nested directories

A session that a shell comes to (`Shell.Reached`) is in resolved directories only, if paths do
not lead into loops of links.  Then a block in a directory and one in it are one block in the
directory of the joined path (`nests_of_reached`).
-/

namespace Bindery
namespace Shell

/-- The directory that the shell is in. -/
def whereabouts : Act Path := return (← get).cwd

/-- The sessions that a shell comes to from the one that it is opened with. -/
inductive Reached (sh : Shell) (start : Option Path) : Session → Prop where
  /-- The shell is opened. -/
  | opened {m : Machine} {s : Session} (h : sh.openAt start m = .ok s) : Reached sh start s
  /-- A command was asked for. -/
  | ran {s : Session} (h : Reached sh start s) (words : List Value) (capture : Bool) :
      Reached sh start ((sh.executeWords words capture).run s).2
  /-- A directory is entered. -/
  | entered {s s' : Session} {dir : Path} (h : Reached sh start s) (path : Text)
      (htarget : (sh.target (.parse path)).run s = (.ok dir, s')) : Reached sh start (s'.enter dir)
  /-- A directory is left. -/
  | left {s : Session} (h : Reached sh start s) : Reached sh start s.leave

/-- What holds of the directories of a session, and of blocks that nest in it. -/
structure Nests (sh : Shell) (s : Session) : Prop where
  /-- Every directory is a path straight down from the root directory, without links. -/
  resolved (dir : Path) : dir ∈ s.stack → sh.world.files.IsResolved dir
  /-- A directory resolves to itself. -/
  fixed (dir : Path) : dir ∈ s.stack → sh.world.files.resolve sh.world.current dir = .ok dir
  /-- A block within a block is in the directory that the joined path leads to. -/
  composes (a b : Text) : FileSystem.pathFault? a = none → FileSystem.pathFault? b = none →
    ∃ place, sh.world.files.Reaches .root (s.cwd / .parse a / .parse b).parts (.straight place) ∧
      ((sh.inside (.parse a) fun _ => sh.inside (.parse b) fun _ => whereabouts).run s).1 =
        .ok (.ofNames place.reverse) ∧
      ((sh.inside (.parse a / .parse b) fun _ => whereabouts).run s).1 =
        .ok (.ofNames place.reverse)
  /-- A block in `.` stays in the directory. -/
  dot : ((sh.inside (.parse (Text.ofString ".")) fun _ => whereabouts).run s).1 = .ok s.cwd
  /-- A block in the directory by its name stays in it. -/
  named : ((sh.inside (.parse s.cwd.text) fun _ => whereabouts).run s).1 = .ok s.cwd

variable {sh : Shell} {start : Option Path} {s : Session} {path dir : Path}

theorem run_whereabouts (s : Session) : whereabouts.run s = (.ok s.cwd, s) := rfl

theorem directory_of_resolve
    (h : sh.world.files.resolve sh.world.current (s.cwd / path) = .ok dir) :
    sh.directory s.cwd path = .ok dir := by
  rw [directory, h]
  rfl

theorem whereabouts_inside
    (h : sh.world.files.resolve sh.world.current (s.cwd / path) = .ok dir) :
    ((sh.inside path fun _ => whereabouts).run s).1 = .ok dir := by
  rw [sh.run_inside_of_ok s (directory_of_resolve h), run_within, run_whereabouts]
  rfl

theorem run_inside_inside {inner : Path} {α : Type}
    (h : sh.world.files.resolve sh.world.current (s.cwd / path) = .ok dir) (body : Path → Act α) :
    ((sh.inside path fun _ => sh.inside inner body).run s).1 =
      ((sh.inside inner body).run ((s.logged (enterEvent dir)).enter dir)).1 := by
  rw [sh.run_inside_of_ok s (directory_of_resolve h), run_within]

theorem stack_of_leave (h : dir ∈ s.leave.stack) : dir ∈ s.stack := by
  unfold Session.leave at h
  split at h
  · exact h
  · next houter =>
      rw [Session.stack, houter]
      exact .tail _ h

theorem stack_executeWords (words : List Value) (capture : Bool) (s : Session) :
    ((sh.executeWords words capture).run s).2.stack = s.stack := by
  rw [sh.run_executeWords s
    (d := ⟨words, s.cwd, capture, (sh.respond words s.cwd capture s.machine).1⟩) rfl rfl]
  rfl

/-- Every directory of a session that a shell comes to is resolved. -/
theorem isResolved_of_reached (hfs : sh.world.files.IsNavigable sh.world.current)
    (hnames : (start.getD sh.context.root).HasNames)
    (hseen : (start.getD sh.context.root).isAbsolute = true ∨
      ¬sh.world.files.Overlooks (.here sh.world.current) (start.getD sh.context.root).parts)
    (h : sh.Reached start s) : ∀ dir ∈ s.stack, sh.world.files.IsResolved dir := by
  induction h with
  | @opened m s h =>
      unfold openAt at h
      cases hresolve : sh.world.files.resolve sh.world.current (start.getD sh.context.root) with
      | error fault =>
          rw [hresolve] at h
          cases h
      | ok cwd =>
          rw [hresolve] at h
          cases h
          exact List.forall_mem_singleton.2 (hfs.isResolved_of_resolve hnames hseen hresolve)
  | ran h words capture ih =>
      rw [stack_executeWords]
      exact ih
  | @entered s s' dir h path htarget ih =>
      cases hresolve : sh.world.files.resolve sh.world.current (s.cwd / .parse path) with
      | error fault =>
          rw [target, Act.run_mk, hresolve] at htarget
          cases htarget
      | ok dir' =>
          rw [target, Act.run_mk, hresolve] at htarget
          cases htarget
          have hcwd := ih s.cwd (.head _)
          have hdir := hfs.isResolved_of_resolve (hcwd.hasNames.div (Path.hasNames_parse path))
            (.inl (Path.isAbsolute_div hcwd.isAbsolute)) hresolve
          exact List.forall_mem_cons.2 ⟨hdir, ih⟩
  | left h ih => exact fun dir hdir => ih dir (stack_of_leave hdir)

/-- Blocks nest in every session that a shell comes to, if no path leads into a loop of links. -/
theorem nests_of_reached (hfs : sh.world.files.IsNavigable sh.world.current)
    (hnames : (start.getD sh.context.root).HasNames)
    (hseen : (start.getD sh.context.root).isAbsolute = true ∨
      ¬sh.world.files.Overlooks (.here sh.world.current) (start.getD sh.context.root).parts)
    (h : sh.Reached start s) : sh.Nests s := by
  have hresolved := isResolved_of_reached hfs hnames hseen h
  have hcwd := hresolved s.cwd (.head _)
  refine ⟨hresolved, fun dir hdir => hfs.resolve_self (hresolved dir hdir), ?_, ?_, ?_⟩
  · intro a b ha hb
    have hnamesOf (x : Text) := Path.hasNames_parse x
    have houter := hcwd.hasNames.div (hnamesOf a)
    have hroot : (s.cwd / Path.parse a).isAbsolute = true := Path.isAbsolute_div hcwd.isAbsolute
    have htaken := FileSystem.allTaken_div hcwd.taken (FileSystem.allTaken_parse ha)
    obtain ⟨place, -, hresolve⟩ := hfs.exists_resolve houter hroot htaken
    obtain ⟨place', hreach, hresolve'⟩ := hfs.exists_resolve (houter.div (hnamesOf b))
      (Path.isAbsolute_div hroot) (FileSystem.allTaken_div htaken (FileSystem.allTaken_parse hb))
    have hinner := hfs.resolve_div houter (hnamesOf b) hroot htaken
      (FileSystem.allTaken_parse hb) hresolve
    refine ⟨place', hreach, ?_, ?_⟩
    · rw [run_inside_inside hresolve]
      exact whereabouts_inside (hinner.trans hresolve')
    · rw [Path.div_div] at hresolve'
      exact whereabouts_inside hresolve'
  · have hdot : s.cwd / Path.parse (Text.ofString ".") = s.cwd := by
      obtain ⟨⟨root, parts⟩, outer, history, machine⟩ := s
      exact congrArg (Path.mk root) (List.append_nil parts)
    refine whereabouts_inside ?_
    rw [hdot]
    exact hfs.resolve_self hcwd
  · have hself : s.cwd / s.cwd = s.cwd := if_pos hcwd.isAbsolute
    refine whereabouts_inside ?_
    rw [Path.parse_text hcwd.hasNames, hself]
    exact hfs.resolve_self hcwd

/-! ## Samples -/

/-- A tree with a link below its parent and one to the root of its mount point. -/
def linkedTree : FileSystem where
  mount := ["srv"]
  entries :=
    [(["srv", "book"], .directory), (["srv", "book", "docs"], .directory),
      (["srv", "book", "top"], .link "/srv"), (["srv", "site"], .link "book/docs")]

/-- A shell in a tree with links. -/
def linkedShell : Shell where
  world := { files := linkedTree, current := ["srv", "book"], children := fun _ _ => {} }
  context :=
    { runId := "r1", root := .ofNames ["srv", "book"], logJson := false, verbose := false,
      quiet := false, dryRun := false, ci := false, refName := none }

theorem linkedTree_isNavigable : linkedTree.IsNavigable ["srv", "book"] where
  loopFree p _ := FileSystem.IsShallow.not_meetsLoop (by decide +kernel)
  linksTaken place target hentry := by
    have hall : ∀ e ∈ linkedTree.entries, ∀ target ∈ e.2.target?,
        FileSystem.pathFault? target = none := by decide +kernel
    exact hall _ (FileSystem.mem_entries_of_link hentry) target rfl
  current := ⟨rfl, by decide +kernel, by decide +kernel⟩

theorem linkedShell_opened : linkedShell.Reached none { cwd := .ofNames ["srv", "book"] } :=
  .opened (m := {}) rfl

/-- A block is entered through both links of the tree. -/
theorem nests_of_linkedShell :
    ∃ s, linkedShell.Reached none s ∧ s.cwd = .ofNames ["srv", "book", "docs"] ∧
      linkedShell.Nests s := by
  have hdir : linkedTree.resolve ["srv", "book"]
      (.ofNames ["srv", "book"] / .parse (Text.ofString "top/site/../docs")) =
        .ok (.ofNames ["srv", "book", "docs"]) := by decide +kernel
  have htarget := linkedShell.run_target_of_ok { cwd := .ofNames ["srv", "book"] }
    (directory_of_resolve hdir)
  have hentered := linkedShell_opened.entered "top/site/../docs" htarget
  have hnames : ((none : Option Path).getD linkedShell.context.root).HasNames :=
    linkedTree_isNavigable.current.hasNames
  exact ⟨_, hentered, rfl, nests_of_reached linkedTree_isNavigable hnames (.inl rfl) hentered⟩

/-- A path that climbs to a link by more bytes than the system takes. -/
def distantPath : Path :=
  ⟨.relative,
    List.replicate 1400 (Text.ofString "..") ++ [Text.ofString "srv", Text.ofString "site"]⟩

/-- Climbing from the directory of the process makes a way longer. -/
theorem reaches_replicate (fs : FileSystem) (climbed n : Nat) (place origin : List Text) :
    fs.Reaches ⟨false, List.replicate climbed (Text.ofString ".."), place, origin⟩
      (List.replicate n (Text.ofString ".."))
      ⟨false, List.replicate (climbed + n) (Text.ofString ".."), place.drop n, origin⟩ := by
  induction n generalizing climbed place with
  | zero => exact .done _
  | succ n ih =>
      have hup : (⟨false, List.replicate climbed (Text.ofString ".."), place, origin⟩ :
          FileSystem.Way).up =
            ⟨false, List.replicate (climbed + 1) (Text.ofString ".."), place.drop 1, origin⟩ := by
        cases climbed <;> simp [FileSystem.Way.up, List.replicate_succ]
      have hrest := ih (climbed + 1) (place.drop 1)
      rw [List.drop_drop, Nat.add_assoc, Nat.add_comm 1 n] at hrest
      exact .climb rfl (hup ▸ hrest)

theorem link?_of_climbed {climbed : Nat} (h : 1400 ≤ climbed) (names place origin : List Text) :
    linkedTree.link?
      ⟨false, names ++ List.replicate climbed (Text.ofString ".."), place, origin⟩ = none := by
  have hdots : Text.byteCount (Text.ofString "..") = 2 := by decide
  have hsum : FileSystem.byteSum (List.replicate climbed (Text.ofString "..")) = climbed * 3 := by
    rw [FileSystem.byteSum, List.map_replicate, List.sum_replicate_nat, hdots]
  rw [FileSystem.link?, if_pos]
  rw [FileSystem.isHidden, Bool.or_eq_true]
  left
  rw [FileSystem.Way.isTooLong, FileSystem.exceeds_eq, FileSystem.byteSum_append, hsum,
    decide_eq_true_iff, FileSystem.longestPath]
  simp only [Bool.false_eq_true, if_false]
  omega

theorem resolve_distantPath :
    linkedTree.resolve ["srv", "book"] distantPath = .ok (.ofNames ["srv", "site"]) := by
  have hlong : 1400 ≤ 0 + 1400 := by omega
  have hlinked : ∀ name ∈ [Text.ofString "..", Text.ofString "srv", Text.ofString "site"],
      Path.isName name = true ∧ .char '/' ∉ name ∧ FileSystem.pathFault? name = none := by decide
  have hreach : linkedTree.Reaches (.start ["srv", "book"] distantPath) distantPath.parts
      ⟨false, [Text.ofString "site", Text.ofString "srv"] ++
        List.replicate (0 + 1400) (Text.ofString ".."),
        [Text.ofString "site", Text.ofString "srv"],
        [Text.ofString "book", Text.ofString "srv"]⟩ :=
    (reaches_replicate linkedTree 0 1400 [Text.ofString "book", Text.ofString "srv"] _).append
      (.down (by decide) (link?_of_climbed hlong [_] _ _)
        (.down (by decide) (link?_of_climbed hlong [_, _] _ _) (.done _)))
  have hall : ∀ name ∈ distantPath.parts, Path.isName name = true ∧ .char '/' ∉ name ∧
      FileSystem.pathFault? name = none := by
    intro name hname
    refine hlinked name ?_
    rcases List.mem_append.1 hname with hname | hname
    · exact List.eq_of_mem_replicate hname ▸ .head _
    · exact .tail _ hname
  have hloop := linkedTree_isNavigable.loopFree distantPath fun name hname =>
    ⟨(hall name hname).1, (hall name hname).2.1⟩
  obtain ⟨last, hlast, hresolve⟩ := FileSystem.resolve_of_reaches
    linkedTree_isNavigable.current.taken linkedTree_isNavigable.linksTaken
    (fun name hname => (hall name hname).2.2) hloop
  rw [FileSystem.Reaches.unique hreach hlast] at hresolve
  exact hresolve.trans (by decide +kernel)

/-- A text without the character U+0000 may have no bytes, and then no directory is entered.
And a shell may be opened in a link that is too far away to look at, and is then elsewhere in a
block in `.`. -/
theorem not_nests_of_samples :
    (linkedShell.Reached none { cwd := .ofNames ["srv", "book"] } ∧
      CodePoint.char '\x00' ∉ ([.char '/', .half 0] : Text) ∧
      ∃ fault, ((linkedShell.inside (.parse [.char '/', .half 0]) fun _ => whereabouts).run
        { cwd := .ofNames ["srv", "book"] }).1 = .error fault) ∧
    linkedShell.Reached (some distantPath) { cwd := .ofNames ["srv", "site"] } ∧
      ((linkedShell.inside (.parse (Text.ofString ".")) fun _ => whereabouts).run
        { cwd := .ofNames ["srv", "site"] }).1 = .ok (.ofNames ["srv", "book", "docs"]) := by
  have hdocs : linkedTree.resolve ["srv", "book"]
      (.ofNames ["srv", "site"] / .parse (Text.ofString ".")) =
        .ok (.ofNames ["srv", "book", "docs"]) := by decide +kernel
  have hhalf : linkedTree.resolve ["srv", "book"]
      (.ofNames ["srv", "book"] / .parse [.char '/', .half 0]) =
        .error (.refused (.unencodable ⟨.half 0, 1, 2⟩)) := by decide +kernel
  refine ⟨⟨linkedShell_opened, by decide, ?_⟩, ?_, ?_⟩
  · have hdir : linkedShell.directory (.ofNames ["srv", "book"])
        (.parse [.char '/', .half 0]) = _ := congrArg (Except.mapError Fault.unresolved) hhalf
    rw [linkedShell.run_inside_of_error _ hdir]
    exact ⟨_, rfl⟩
  · refine .opened (m := {}) ?_
    change (linkedTree.resolve ["srv", "book"] distantPath >>= _) = _
    rw [resolve_distantPath]
    rfl
  · exact whereabouts_inside hdocs

end Shell
end Bindery
