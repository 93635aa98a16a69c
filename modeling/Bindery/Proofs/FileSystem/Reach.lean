import Mathlib.Data.List.Nodup
import Mathlib.Data.List.Perm.Subperm
import Bindery.Proofs.FileSystem.Links

/-!
# Where names lead

`FileSystem.Reaches` says where names lead from a way.  It follows every link to its end, and
has no bound and no faults.  Names lead to one way at most (`Reaches.unique`), and names behind
others go on from where these lead (`Reaches.append`).

`FileSystem.Meets` is what can be met on the way.  If no link is met while it is itself being
followed, a resolution ends where the names lead, or at a name that the system does not take
(`resolveNames_answers`).  The bound on nested links is never reached, as the links that are
being followed are distinct ones of the tree (`length_le_linkCount`).
-/

namespace Bindery.FileSystem

/-- The way from which the target of a link is followed, for a link below another way. -/
def Way.base (way : Way) (target : Text) : Way := if isRooted target then .root else way

/-- The way that a path starts from, for a process in a directory. -/
def Way.start (current : List Text) (p : Path) : Way :=
  if p.isAbsolute then .root else .here current

/-- Names lead from a way to another one. -/
inductive Reaches (fs : FileSystem) : Way → List Text → Way → Prop where
  | done (way : Way) : Reaches fs way [] way
  | stay {way last : Way} {name : Text} {names : List Text} (h : Stays name)
      (hrest : Reaches fs way names last) : Reaches fs way (name :: names) last
  | climb {way last : Way} {name : Text} {names : List Text} (h : Climbs name)
      (hrest : Reaches fs way.up names last) : Reaches fs way (name :: names) last
  | down {way last : Way} {name : Text} {names : List Text} (h : GoesDown name)
      (hlink : fs.link? (way.down name) = none) (hrest : Reaches fs (way.down name) names last) :
      Reaches fs way (name :: names) last
  | link {way mid last : Way} {name target : Text} {names : List Text} (h : GoesDown name)
      (hlink : fs.link? (way.down name) = some target)
      (htarget : Reaches fs (way.base target) (targetPieces target) mid)
      (hrest : Reaches fs mid names last) : Reaches fs way (name :: names) last

/-- Something is met where names lead, on the way or in the target of a link.  What is bad may
depend on the places of the links that are being followed, the innermost one first. -/
inductive Meets (fs : FileSystem) (bad : List (List Text) → Way → Prop) :
    (active : List (List Text)) → Way → List Text → Prop where
  | here {active : List (List Text)} {way : Way} {name : Text} {names : List Text}
      (h : GoesDown name) (hbad : bad active (way.down name)) :
      Meets fs bad active way (name :: names)
  | stay {active : List (List Text)} {way : Way} {name : Text} {names : List Text}
      (h : Stays name) (hrest : Meets fs bad active way names) :
      Meets fs bad active way (name :: names)
  | climb {active : List (List Text)} {way : Way} {name : Text} {names : List Text}
      (h : Climbs name) (hrest : Meets fs bad active way.up names) :
      Meets fs bad active way (name :: names)
  | down {active : List (List Text)} {way : Way} {name : Text} {names : List Text}
      (h : GoesDown name) (hlink : fs.link? (way.down name) = none)
      (hrest : Meets fs bad active (way.down name) names) : Meets fs bad active way (name :: names)
  | within {active : List (List Text)} {way : Way} {name target : Text} {names : List Text}
      (h : GoesDown name) (hlink : fs.link? (way.down name) = some target)
      (htarget : Meets fs bad ((way.down name).place :: active) (way.base target)
        (targetPieces target)) : Meets fs bad active way (name :: names)
  | behind {active : List (List Text)} {way mid : Way} {name target : Text} {names : List Text}
      (h : GoesDown name) (hlink : fs.link? (way.down name) = some target)
      (htarget : Reaches fs (way.base target) (targetPieces target) mid)
      (hrest : Meets fs bad active mid names) : Meets fs bad active way (name :: names)

/-- The way leads to a link that is being followed. -/
def IsAgain (fs : FileSystem) (active : List (List Text)) (way : Way) : Prop :=
  way.place ∈ active ∧ (fs.link? way).isSome

/-- Names meet a link while it is itself being followed. -/
def MeetsLoop (fs : FileSystem) : (active : List (List Text)) → Way → List Text → Prop :=
  fs.Meets fs.IsAgain

variable {fs : FileSystem} {way last : Way} {name target : Text} {names more : List Text}

/-! ## Ways that are reached -/

theorem Stays.not_climbs (h : Stays name) : ¬Climbs name := by
  rintro rfl
  revert h
  decide

theorem reaches_of_stays (h : Stays name) :
    fs.Reaches way (name :: names) last ↔ fs.Reaches way names last := by
  refine ⟨fun hreach => ?_, .stay h⟩
  cases hreach with
  | stay _ hrest => exact hrest
  | climb h' _ => exact absurd h' h.not_climbs
  | down h' _ _ => exact absurd h h'.1
  | link h' _ _ _ => exact absurd h h'.1

theorem reaches_of_climbs (h : Climbs name) :
    fs.Reaches way (name :: names) last ↔ fs.Reaches way.up names last := by
  refine ⟨fun hreach => ?_, .climb h⟩
  cases hreach with
  | stay h' _ => exact absurd h h'.not_climbs
  | climb _ hrest => exact hrest
  | down h' _ _ => exact absurd h h'.2
  | link h' _ _ _ => exact absurd h h'.2

theorem reaches_of_none (h : GoesDown name) (hlink : fs.link? (way.down name) = none) :
    fs.Reaches way (name :: names) last ↔ fs.Reaches (way.down name) names last := by
  refine ⟨fun hreach => ?_, .down h hlink⟩
  cases hreach with
  | stay h' _ => exact absurd h' h.1
  | climb h' _ => exact absurd h' h.2
  | down _ _ hrest => exact hrest
  | link _ hlink' _ _ => simp [hlink] at hlink'

theorem reaches_of_some (h : GoesDown name) (hlink : fs.link? (way.down name) = some target) :
    fs.Reaches way (name :: names) last ↔
      ∃ mid, fs.Reaches (way.base target) (targetPieces target) mid ∧
        fs.Reaches mid names last := by
  refine ⟨fun hreach => ?_, fun ⟨_, htarget, hrest⟩ => .link h hlink htarget hrest⟩
  cases hreach with
  | stay h' _ => exact absurd h' h.1
  | climb h' _ => exact absurd h' h.2
  | down _ hlink' _ => simp [hlink] at hlink'
  | link _ hlink' htarget hrest =>
      rw [hlink] at hlink'
      cases hlink'
      exact ⟨_, htarget, hrest⟩

/-- Names lead to one way at most. -/
theorem Reaches.unique {last' : Way} (h : fs.Reaches way names last)
    (h' : fs.Reaches way names last') : last' = last := by
  induction h generalizing last' with
  | done => cases h'; rfl
  | stay h hrest ih => exact ih ((reaches_of_stays h).1 h')
  | climb h hrest ih => exact ih ((reaches_of_climbs h).1 h')
  | down h hlink hrest ih => exact ih ((reaches_of_none h hlink).1 h')
  | link h hlink htarget hrest ihtarget ihrest =>
      obtain ⟨mid, htarget', hrest'⟩ := (reaches_of_some h hlink).1 h'
      cases ihtarget htarget'
      exact ihrest hrest'

/-- Names behind others go on from where these lead. -/
theorem Reaches.append {mid : Way} (h : fs.Reaches way names mid)
    (h' : fs.Reaches mid more last) : fs.Reaches way (names ++ more) last := by
  induction h with
  | done => exact h'
  | stay h hrest ih => exact .stay h (ih h')
  | climb h hrest ih => exact .climb h (ih h')
  | down h hlink hrest ih => exact .down h hlink (ih h')
  | link h hlink htarget hrest ihtarget ihrest => exact .link h hlink htarget (ihrest h')

/-- Names behind others lead on from where these lead. -/
theorem Reaches.rest {mid : Way} (h : fs.Reaches way names mid)
    (h' : fs.Reaches way (names ++ more) last) : fs.Reaches mid more last := by
  induction h with
  | done => exact h'
  | stay h hrest ih => exact ih ((reaches_of_stays h).1 h')
  | climb h hrest ih => exact ih ((reaches_of_climbs h).1 h')
  | down h hlink hrest ih => exact ih ((reaches_of_none h hlink).1 h')
  | link h hlink htarget hrest ihtarget ihrest =>
      obtain ⟨mid, htarget', hrest'⟩ := (reaches_of_some h hlink).1 h'
      cases htarget.unique htarget'
      exact ihrest hrest'

/-! ## Resolutions -/

/-- What names come to where no link is met again: the way that they lead to, or a name that
the system does not take. -/
def Answers (fs : FileSystem) (way : Way) (names : List Text) : Except Obstacle Way → Prop
  | .ok last => fs.Reaches way names last
  | .error (.loop _) => False
  | .error (.refused _) => True

theorem Answers.mono {way' : Way} {names' : List Text} {outcome : Except Obstacle Way}
    (h : fs.Answers way names outcome)
    (hreach : ∀ last, fs.Reaches way names last → fs.Reaches way' names' last) :
    fs.Answers way' names' outcome := by
  rcases outcome with (loop | fault) | last
  · exact h
  · exact h
  · exact hreach last h

/-- Names have an answer if the links that they meet have. -/
theorem resolveNames_answers {follow : Way → Way → Text → Except Obstacle Way}
    {active : List (List Text)}
    (hfollow : ∀ {above : Way} {name target : Text},
      fs.link? (above.down name) = some target → (above.down name).place ∉ active →
      ¬fs.MeetsLoop ((above.down name).place :: active) (above.base target) (targetPieces target) →
      fs.Answers (above.base target) (targetPieces target) (follow above (above.down name) target))
    (hloop : ¬fs.MeetsLoop active way names) :
    fs.Answers way names (fs.resolveNames follow way names) := by
  induction names generalizing way with
  | nil => exact .done way
  | cons name names ih =>
      by_cases hstays : Stays name
      · rw [resolveNames_of_stays hstays]
        exact (ih fun hmeets => hloop (.stay hstays hmeets)).mono fun _ => .stay hstays
      by_cases hclimbs : Climbs name
      · rw [resolveNames_of_climbs hclimbs]
        exact (ih fun hmeets => hloop (.climb hclimbs hmeets)).mono fun _ => .climb hclimbs
      have hdown : GoesDown name := ⟨hstays, hclimbs⟩
      by_cases htaken : pathFault? name = none
      · rw [resolveNames_of_goesDown hdown htaken]
        cases hlink : fs.link? (way.down name) with
        | none =>
            exact (ih fun hmeets => hloop (.down hdown hlink hmeets)).mono
              fun _ => .down hdown hlink
        | some target =>
            have hnew : (way.down name).place ∉ active := fun hactive =>
              hloop (.here hdown ⟨hactive, by simp [hlink]⟩)
            have htarget := hfollow hlink hnew fun hmeets => hloop (.within hdown hlink hmeets)
            dsimp only
            rcases hmid : follow way (way.down name) target with (loop | fault) | mid <;>
              rw [hmid] at htarget
            · exact False.elim htarget
            · exact trivial
            · exact (ih fun hmeets => hloop (.behind hdown hlink htarget hmeets)).mono
                fun _ => .link hdown hlink htarget
      · have hrefused : ∃ fault, fs.resolveNames follow way (name :: names) =
            .error (.refused fault) := resolveNames_of_refused hdown htaken
        obtain ⟨fault, hfault⟩ := hrefused
        rw [hfault]
        exact trivial

theorem entry?_of_link? (h : fs.link? way = some target) :
    fs.entry? way.place.reverse = some (.link target) := by
  unfold link? at h
  split at h
  · cases h
  · obtain ⟨entry, hentry, htarget⟩ := Option.bind_eq_some_iff.1 h
    rw [hentry]
    cases entry <;> simp_all [Entry.target?]

theorem mem_entries_of_link {place : List Text} (h : fs.entry? place = some (.link target)) :
    (place, .link target) ∈ fs.entries := by
  unfold entry? at h
  split at h
  · cases h
  · obtain ⟨before, after, hentries, -⟩ := List.lookup_eq_some_iff.1 h
    simp [hentries]

/-- A tree has at least as many links as ways lead to different links. -/
theorem length_le_linkCount {ways : List Way} (hdistinct : (ways.map Way.place).Nodup)
    (hlinks : ∀ way ∈ ways, (fs.link? way).isSome) : ways.length ≤ fs.linkCount := by
  have hsubset : (ways.map Way.place).map List.reverse ⊆
      (fs.entries.filter fun e => e.2.target?.isSome).map Prod.fst := by
    simp only [List.subset_def, List.mem_map, List.mem_filter]
    rintro _ ⟨_, ⟨way, hway, rfl⟩, rfl⟩
    obtain ⟨target, htarget⟩ := Option.isSome_iff_exists.1 (hlinks way hway)
    exact ⟨_, ⟨mem_entries_of_link (entry?_of_link? htarget), rfl⟩, rfl⟩
  have hdistinct' : ((ways.map Way.place).map List.reverse).Nodup :=
    hdistinct.map List.reverse_injective
  rw [linkCount_eq]
  simpa using (List.subperm_of_subset hdistinct' hsubset).length_le

/-- A link that is met for the first time has an answer, if no link in its target is met again.
The links that are being followed are distinct, so the bound on them is never reached. -/
theorem resolveLink_answers {depth : Nat} {active : List Way} {above link : Way}
    (hdistinct : ((link :: active).map Way.place).Nodup)
    (hlinks : ∀ way ∈ link :: active, (fs.link? way).isSome)
    (hdepth : fs.linkCount ≤ depth + active.length)
    (hloop : ¬fs.MeetsLoop ((link :: active).map Way.place) (above.base target)
      (targetPieces target)) :
    fs.Answers (above.base target) (targetPieces target)
      (fs.resolveLink depth active above link target) := by
  induction depth generalizing active above link target with
  | zero =>
      have hcount := length_le_linkCount hdistinct hlinks
      rw [List.length_cons] at hcount
      omega
  | succ depth ih =>
      have hnew : active.contains link = false := by
        rw [List.map_cons, List.nodup_cons] at hdistinct
        simpa using fun h => hdistinct.1 (List.mem_map_of_mem h)
      rw [resolveLink, hnew]
      refine resolveNames_answers (fun hlink hplace hmeets => ?_) hloop
      refine ih (List.nodup_cons.2 ⟨hplace, hdistinct⟩) ?_ (by simp; omega) hmeets
      exact List.forall_mem_cons.2 ⟨by simp [hlink], hlinks⟩

variable {current : List Text} {p : Path}

/-- The names of a path, resolved from the way that it starts from. -/
def outcomeOf (fs : FileSystem) (current : List Text) (p : Path) : Except Obstacle Way :=
  fs.resolveNames (fs.resolveLink ((current.length + 2) * fs.linkCount + 1) []) (.start current p)
    p.parts

theorem resolve_of_ok (h : fs.outcomeOf current p = .ok last) :
    fs.resolve current p = fs.inspected current (.ofNames last.place.reverse) := by
  unfold outcomeOf Way.start at h
  simp only [resolve, h]

theorem resolve_of_refused {fault : PathFault}
    (h : fs.outcomeOf current p = .error (.refused fault)) :
    fs.resolve current p = .error (.refused fault) := by
  unfold outcomeOf Way.start at h
  simp only [resolve, h]

theorem outcomeOf_answers (hloop : ¬fs.MeetsLoop [] (.start current p) p.parts) :
    fs.Answers (.start current p) p.parts (fs.outcomeOf current p) := by
  refine resolveNames_answers (fun hlink _ hmeets => ?_) hloop
  refine resolveLink_answers (List.nodup_singleton _) (by simp [hlink]) ?_ hmeets
  have hcount := Nat.le_mul_of_pos_left fs.linkCount (show 0 < current.length + 2 by omega)
  rw [List.length_nil]
  omega

/-- A path is resolved to where its names lead, if no link is met again. -/
theorem reaches_of_resolve {dir : Path} (hloop : ¬fs.MeetsLoop [] (.start current p) p.parts)
    (h : fs.resolve current p = .ok dir) :
    ∃ last, fs.Reaches (.start current p) p.parts last ∧ dir = .ofNames last.place.reverse := by
  have hanswers := outcomeOf_answers hloop
  rcases houtcome : fs.outcomeOf current p with (loop | fault) | last <;>
    rw [houtcome] at hanswers
  · exact False.elim hanswers
  · rw [resolve_of_refused houtcome] at h
    cases h
  · rw [resolve_of_ok houtcome] at h
    exact ⟨last, hanswers, eq_of_inspected h⟩

/-- A path of names that the system takes is resolved, unless a walk to the end of its
resolution finds a loop. -/
theorem resolve_of_reaches (hcurrent : AllTaken current)
    (hlinks : ∀ place target, fs.entry? place = some (.link target) → pathFault? target = none)
    (hp : AllTaken p.parts) (hloop : ¬fs.MeetsLoop [] (.start current p) p.parts) :
    ∃ last, fs.Reaches (.start current p) p.parts last ∧
      fs.resolve current p = fs.inspected current (.ofNames last.place.reverse) := by
  have hanswers := outcomeOf_answers hloop
  have hfine : Fine True (fs.outcomeOf current p) :=
    fs.resolveNames_start_fine p True hcurrent (fun _ => hlinks) (fun _ => hp) _
  rcases houtcome : fs.outcomeOf current p with (loop | fault) | last <;>
    rw [houtcome] at hanswers hfine
  · exact False.elim hanswers
  · exact absurd trivial hfine
  · exact ⟨last, hanswers, resolve_of_ok houtcome⟩

end Bindery.FileSystem
