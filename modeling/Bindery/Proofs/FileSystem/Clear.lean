import Mathlib.Algebra.Ring.Nat
import Bindery.Proofs.FileSystem.Names
import Bindery.Proofs.FileSystem.Reach

/-!
# Places without links

A place is clear if the system finds no link on the way down to it (`FileSystem.Clear`).  Names
from a clear place lead to a clear place (`Reaches.isClear`), and the names of a clear place lead
to it (`reaches_straight`).  A walk down to a clear place finds no loop (`inspected_of_clear`).

Only a link that the system cannot look at is in the way (`IsOverlooked`).  A path from the
directory of the process may be too long, and the path from the root directory to the same link
short enough.  Or the first path climbs out of a directory that is closed, and the second one
does not go through it.
-/

namespace Bindery.FileSystem

/-- The way straight down from the root directory to a place. -/
def Way.straight (place : List Text) : Way := ⟨true, place, place, []⟩

/-- The system finds no link on the way down to a place, which has its last name first. -/
def Clear (fs : FileSystem) : List Text → Prop
  | [] => True
  | name :: names =>
      (GoesDown name ∧ .char '/' ∉ name ∧ fs.link? (.straight (name :: names)) = none) ∧
        Clear fs names

instance Clear.decide (fs : FileSystem) : (place : List Text) → Decidable (fs.Clear place)
  | [] => inferInstanceAs (Decidable True)
  | _ :: names =>
      have := Clear.decide fs names
      inferInstanceAs (Decidable (_ ∧ _))

/-- The way leads to a link, but the system cannot look at it. -/
structure IsOverlooked (fs : FileSystem) (way : Way) : Prop where
  relative : way.rooted = false
  hidden : fs.isHidden way = true
  link : ((fs.entry? way.place.reverse).bind Entry.target?).isSome

/-- Names meet a link that the system cannot look at. -/
def Overlooks (fs : FileSystem) : Way → List Text → Prop :=
  fs.Meets (fun _ => fs.IsOverlooked) []

/-- A way leads to a clear place, and straight down to it if it starts from the root directory. -/
structure Way.IsClear (fs : FileSystem) (way : Way) : Prop where
  clear : fs.Clear way.place
  straight : way.rooted = true → way.back = way.place ∧ way.origin = []

variable {fs : FileSystem} {way last : Way} {name target : Text} {names place : List Text}
  {active : List (List Text)}

/-! ## Clear places -/

theorem Clear.of_append (h : fs.Clear (names ++ place)) : fs.Clear place := by
  induction names with
  | nil => exact h
  | cons name names ih => exact ih h.2

theorem Clear.drop (h : fs.Clear place) (n : Nat) : fs.Clear (place.drop n) := by
  rw [← place.take_append_drop n] at h
  exact h.of_append

theorem Clear.goesDown (h : fs.Clear place) : ∀ name ∈ place, GoesDown name := by
  induction place with
  | nil => simp
  | cons name names ih => exact List.forall_mem_cons.2 ⟨h.1.1, ih h.2⟩

theorem Clear.isPlain (h : fs.Clear place) : ∀ name ∈ place, Path.IsPlain name := by
  induction place with
  | nil => simp
  | cons name names ih =>
      refine List.forall_mem_cons.2 ⟨⟨?_, h.1.2.1⟩, ih h.2⟩
      have hstays : ¬(name = [] ∨ name = Text.ofString ".") := h.1.1.1
      simpa [Path.isName] using hstays

/-- The names of a clear place lead to it. -/
theorem reaches_straight (h : fs.Clear (names.reverse ++ place)) :
    fs.Reaches (.straight place) names (.straight (names.reverse ++ place)) := by
  induction names generalizing place with
  | nil => exact .done _
  | cons name names ih =>
      rw [List.reverse_cons, List.append_assoc, List.singleton_append] at h ⊢
      have hname := h.of_append.1
      exact .down hname.1 hname.2.2 (ih h)

/-! ## Ways to clear places -/

theorem Way.IsClear.root : Way.root.IsClear fs := ⟨trivial, fun _ => ⟨rfl, rfl⟩⟩

theorem Way.IsClear.here {current : List Text} (h : fs.Clear current.reverse) :
    (Way.here current).IsClear fs := ⟨h, nofun⟩

theorem Way.IsClear.up (h : way.IsClear fs) : way.up.IsClear fs where
  clear := h.clear.drop 1
  straight hrooted := by
    have hrooted : way.rooted = true := hrooted
    obtain ⟨hback, horigin⟩ := h.straight hrooted
    simp [Way.up, hrooted, hback, horigin]

theorem Way.IsClear.down (h : way.IsClear fs) (hname : GoesDown name) (hslash : .char '/' ∉ name)
    (hlink : fs.link? (way.down name) = none) (hseen : ¬fs.IsOverlooked (way.down name)) :
    (way.down name).IsClear fs where
  clear := by
    refine ⟨⟨hname, hslash, ?_⟩, h.clear⟩
    cases hrooted : way.rooted with
    | true =>
        obtain ⟨hback, horigin⟩ := h.straight hrooted
        have hway : way.down name = .straight (name :: way.place) := by
          simp [Way.down, Way.straight, hrooted, hback, horigin]
        rwa [hway] at hlink
    | false =>
        have hentry : (fs.entry? (name :: way.place).reverse).bind Entry.target? = none := by
          by_cases hhidden : fs.isHidden (way.down name) = true
          · by_contra hsome
            exact hseen ⟨hrooted, hhidden, Option.isSome_iff_ne_none.2 hsome⟩
          · rwa [link?, if_neg hhidden] at hlink
        unfold link?
        split
        · rfl
        · exact hentry
  straight hrooted :=
    ⟨congrArg (List.cons name) (h.straight hrooted).1, (h.straight hrooted).2⟩

theorem Way.IsClear.base (h : way.IsClear fs) (target : Text) : (way.base target).IsClear fs := by
  unfold Way.base
  split
  · exact .root
  · exact h

theorem noSlash_of_mem_targetPieces (h : name ∈ targetPieces target) : .char '/' ∉ name := by
  unfold targetPieces at h
  split at h
  · exact Path.noSlash_of_mem_pieces (List.mem_of_mem_drop h)
  · exact Path.noSlash_of_mem_pieces h

/-- Names lead from clear places to clear places. -/
theorem Reaches.isClear (h : fs.Reaches way names last) (hway : way.IsClear fs)
    (hnames : ∀ name ∈ names, .char '/' ∉ name)
    (hseen : ¬fs.Meets (fun _ => fs.IsOverlooked) active way names) : last.IsClear fs := by
  induction h generalizing active with
  | done => exact hway
  | stay h hrest ih =>
      exact ih hway (List.forall_mem_cons.1 hnames).2 fun hmeets => hseen (.stay h hmeets)
  | climb h hrest ih =>
      exact ih hway.up (List.forall_mem_cons.1 hnames).2 fun hmeets => hseen (.climb h hmeets)
  | down h hlink hrest ih =>
      obtain ⟨hslash, hnames⟩ := List.forall_mem_cons.1 hnames
      have hdown := hway.down h hslash hlink fun hbad => hseen (.here h hbad)
      exact ih hdown hnames fun hmeets => hseen (.down h hlink hmeets)
  | link h hlink htarget hrest ihtarget ihrest =>
      have hmid := ihtarget (hway.base _) (fun _ => noSlash_of_mem_targetPieces)
        fun hmeets => hseen (.within h hlink hmeets)
      exact ihrest hmid (List.forall_mem_cons.1 hnames).2
        fun hmeets => hseen (.behind h hlink htarget hmeets)

/-! ## Ways from the root directory -/

theorem Way.rooted_base (h : way.rooted = true) (target : Text) :
    (way.base target).rooted = true := by
  unfold Way.base
  split
  · rfl
  · exact h

theorem Reaches.rooted (h : fs.Reaches way names last) (hway : way.rooted = true) :
    last.rooted = true := by
  induction h with
  | done => exact hway
  | stay h hrest ih => exact ih hway
  | climb h hrest ih => exact ih hway
  | down h hlink hrest ih => exact ih hway
  | link h hlink htarget hrest ihtarget ihrest => exact ihrest (ihtarget (Way.rooted_base hway _))

/-- No link is overlooked from the root directory. -/
theorem relative_of_overlooks (h : fs.Meets (fun _ => fs.IsOverlooked) active way names) :
    way.rooted = false := by
  by_contra hway
  rw [Bool.not_eq_false] at hway
  induction h with
  | here h hbad => exact Bool.false_ne_true (hbad.relative.symm.trans hway)
  | stay h hrest ih => exact ih hway
  | climb h hrest ih => exact ih hway
  | down h hlink hrest ih => exact ih hway
  | within h hlink htarget ih => exact ih (Way.rooted_base hway _)
  | behind h hlink htarget hrest ih => exact ih (htarget.rooted (Way.rooted_base hway _))

/-- Names lead straight down from the root directory. -/
theorem Reaches.eq_straight (h : fs.Reaches .root names last)
    (hnames : ∀ name ∈ names, .char '/' ∉ name) :
    fs.Clear last.place ∧ last = .straight last.place := by
  have hseen : ¬fs.Overlooks .root names := fun hmeets => by
    simpa [Way.root] using relative_of_overlooks hmeets
  have hclear := h.isClear .root hnames hseen
  have hrooted := h.rooted rfl
  refine ⟨hclear.clear, ?_⟩
  obtain ⟨rooted, back, place, origin⟩ := last
  cases hrooted
  obtain ⟨hback, horigin⟩ := hclear.straight rfl
  cases hback
  cases horigin
  rfl

/-! ## Lengths -/

/-- The bytes of names with a slash in front of each. -/
def byteSum (names : List Text) : Nat := (names.map fun name => Text.byteCount name + 1).sum

theorem exceeds_eq (room : Nat) (names : List Text) :
    Way.exceeds room names = decide (room < byteSum names) := by
  induction names generalizing room with
  | nil => simp [Way.exceeds, byteSum]
  | cons name names ih =>
      have hsum : byteSum (name :: names) = Text.byteCount name + 1 + byteSum names := by
        simp [byteSum]
      rw [Way.exceeds, ih, hsum, ← Bool.decide_or, decide_eq_decide]
      omega

theorem byteCount_eq (s : Text) :
    Text.byteCount s = (s.map fun x => (Text.bytesOf? x).getD 0).sum := by
  unfold Text.byteCount
  rw [List.sum_eq_foldl, List.foldl_map]

theorem byteCount_append (s t : Text) :
    Text.byteCount (s ++ t) = Text.byteCount s + Text.byteCount t := by
  simp [byteCount_eq]

theorem byteSum_append (names more : List Text) :
    byteSum (names ++ more) = byteSum names + byteSum more := by
  simp [byteSum]

theorem byteCount_intercalate (hne : names ≠ []) :
    Text.byteCount (List.intercalate (Text.ofString "/") names) + 1 = byteSum names := by
  have hslash : Text.byteCount (Text.ofString "/") = 1 := by decide
  induction names with
  | nil => exact absurd rfl hne
  | cons name names ih =>
      cases names with
      | nil => simp [List.intercalate, byteSum]
      | cons next names =>
          rw [List.intercalate_cons_cons, byteCount_append, byteCount_append, hslash]
          have hrest := ih (List.cons_ne_nil _ _)
          simp only [byteSum, List.map_cons, List.sum_cons] at hrest ⊢
          omega

/-- The names of a path that is not too long leave room for a way. -/
theorem byteSum_le (h : isPathTooLong (.ofNames place.reverse) = false) :
    byteSum place ≤ longestPath := by
  have hreverse : byteSum place.reverse = byteSum place := by simp [byteSum, List.sum_reverse]
  by_cases hne : place.reverse = []
  · rw [← hreverse, hne]
    exact Nat.zero_le _
  · have hslash : Text.byteCount [.char '/'] = 1 := by decide
    rw [isPathTooLong, Path.ofNames, Path.text_single, decide_eq_false_iff_not, Nat.not_lt,
      ← List.singleton_append, byteCount_append, hslash, Nat.add_comm,
      byteCount_intercalate hne, hreverse] at h
    exact h

/-! ## Walks -/

/-- No directory above a place is closed, so that names are looked up in all of them. -/
def Open (fs : FileSystem) : List Text → Prop
  | [] => True
  | _ :: names => fs.isClosed names.reverse = false ∧ Open fs names

theorem Open.isBarred (h : fs.Open (names.reverse ++ place)) (hnames : Text.ofString ".." ∉ names) :
    fs.isBarred place names = false := by
  induction names generalizing place with
  | nil => rfl
  | cons name names ih =>
      rw [List.reverse_cons, List.append_assoc, List.singleton_append] at h
      rw [List.mem_cons, not_or] at hnames
      have hopen : ∀ {more : List Text}, fs.Open (more ++ name :: place) →
          fs.isClosed place.reverse = false := by
        intro more
        induction more with
        | nil => exact fun h => h.1
        | cons _ _ ih => exact fun h => ih h.2
      have hup : (name == Text.ofString "..") = false := beq_false_of_ne (Ne.symm hnames.1)
      rw [FileSystem.isBarred, hopen h, hup]
      exact ih h hnames.2

/-- A clear place that the system can look at is not that of a link. -/
theorem Clear.target?_eq_none (h : fs.Clear (name :: place)) (hopen : fs.Open (name :: place))
    (hshort : byteSum (name :: place) ≤ longestPath) :
    (fs.entry? (place.reverse ++ [name])).bind Entry.target? = none := by
  have htooLong : (Way.straight (name :: place)).isTooLong = false := by
    rw [Way.isTooLong, Way.straight, if_pos rfl, exceeds_eq, decide_eq_false_iff_not, Nat.not_lt]
    exact hshort
  have hdown : ∀ n ∈ name :: place, GoesDown n := h.goesDown
  have hbarred : fs.isBarred [] (name :: place).reverse = false := by
    refine Open.isBarred (by simpa using hopen) fun hmem => ?_
    exact (hdown _ (List.mem_reverse.1 hmem)).2 rfl
  have hlook : fs.isHidden (.straight (name :: place)) = false := by
    rw [isHidden, htooLong, Way.straight, hbarred, Bool.and_false, Bool.or_false]
  have hlink := h.1.2.2
  rw [link?, hlook] at hlink
  rw [← List.reverse_cons]
  exact hlink

/-- A walk down to a clear place finds no loop. -/
theorem walkNames_ne_linkLoop {follow : List Text → List Text → Except WalkFault Target}
    (hclear : fs.Clear (names.reverse ++ place)) (hopen : fs.Open place)
    (hshort : byteSum (names.reverse ++ place) ≤ longestPath) :
    fs.walkNames follow place.reverse names ≠ .error .linkLoop := by
  induction names generalizing place with
  | nil => simp [walkNames]
  | cons name names ih =>
      rw [List.reverse_cons, List.append_assoc, List.singleton_append] at hclear hshort
      have hname := hclear.of_append.1.1
      have hempty : (name == Text.ofString "") = false := beq_false_of_ne fun h => hname.1 (.inl h)
      have hdot : (name == Text.ofString ".") = false := beq_false_of_ne fun h => hname.1 (.inr h)
      have hup : (name == Text.ofString "..") = false := beq_false_of_ne hname.2
      rw [walkNames, hempty, hdot, hup]
      simp only [Bool.false_eq_true, if_false]
      split
      · nofun
      · next hclosed =>
          have hopen : fs.Open (name :: place) := ⟨Bool.eq_false_iff.2 hclosed, hopen⟩
          have hrest := ih hclear hopen hshort
          have htarget := hclear.of_append.target?_eq_none hopen (by
            rw [byteSum_append] at hshort
            omega)
          rw [List.reverse_cons] at hrest
          split
          · nofun
          · split
            · nofun
            · nofun
            · exact hrest
            · exact hrest
            · split <;> nofun
            · split <;> nofun
            · next hentry => simp [hentry, Entry.target?] at htarget

theorem walk_ne_linkLoop (current : List Text) (h : fs.Clear place) :
    fs.walk current (.ofNames place.reverse) ≠ .error .linkLoop := by
  unfold walk
  split
  · nofun
  · next hshort =>
      rw [Bool.not_eq_true] at hshort
      have hplace : place.reverse.reverse ++ [] = place := by simp
      have hroot : fs.Open [] := trivial
      exact walkNames_ne_linkLoop (hplace.symm ▸ h) hroot (hplace.symm ▸ byteSum_le hshort)

theorem inspected_of_clear (current : List Text) (h : fs.Clear place) :
    fs.inspected current (.ofNames place.reverse) = .ok (.ofNames place.reverse) := by
  unfold inspected
  split
  · next hloop => exact absurd hloop (walk_ne_linkLoop current h)
  · rfl

end Bindery.FileSystem
