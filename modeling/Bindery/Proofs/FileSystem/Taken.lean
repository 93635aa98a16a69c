import Bindery.FileSystem.Resolve

/-!
# Texts that the system takes

The system takes the text of a path if every code point in it has bytes and none is U+0000
(`pathFault?_eq_none_iff`), so it takes a path if it takes its names (`pathFault?_text`).

Where it takes the directory of the process, it takes what a path resolves to
(`pathFault?_of_resolve`).  Where it also takes the path and the targets of all links, a path
without a resolution leads into a loop of links (`resolve_eq_error`).
-/

namespace Bindery
namespace FileSystem

/-! ## Texts -/

/-- The system takes a code point in the text of a path. -/
def Takes (x : CodePoint) : Prop := (Text.bytesOf? x).isSome ∧ x ≠ '\x00'

theorem faultFrom?_eq_none_iff {takes : CodePoint → Bool} {s : Text} {position : Nat} :
    Text.faultFrom? takes position s = none ↔ ∀ x ∈ s, takes x = true := by
  induction s generalizing position with
  | nil => simp [Text.faultFrom?]
  | cons x s ih =>
      unfold Text.faultFrom?
      cases hx : takes x with
      | true => simp [ih, hx]
      | false => simp [hx]

theorem pathFault?_eq_none_iff {s : Text} : pathFault? s = none ↔ ∀ x ∈ s, Takes x := by
  have hbytes : Text.faultFrom? (fun x => (Text.bytesOf? x).isSome) 0 s = none ↔ _ :=
    faultFrom?_eq_none_iff
  unfold pathFault? Text.encodeFault?
  cases hfault : Text.faultFrom? (fun x => (Text.bytesOf? x).isSome) 0 s with
  | some fault =>
      rw [hfault] at hbytes
      constructor
      · intro h
        cases h
      · intro h
        exact absurd (hbytes.2 fun x hx => (h x hx).1) (by simp)
  | none =>
      have hall := hbytes.1 hfault
      simp only [List.contains_eq_mem, decide_eq_true_eq]
      split
      · next hnul =>
          constructor
          · intro h
            cases h
          · intro h
            exact absurd rfl (h _ hnul).2
      · next hnul =>
          refine ⟨fun _ x hx => ⟨hall x hx, ?_⟩, fun _ => rfl⟩
          rintro rfl
          exact hnul hx

/-- The system takes all texts of a list. -/
def AllTaken (names : List Text) : Prop := ∀ name ∈ names, pathFault? name = none

instance (names : List Text) : Decidable (AllTaken names) :=
  inferInstanceAs (Decidable (∀ name ∈ names, _))

namespace AllTaken

variable {names more : List Text} {name : Text}

theorem nil : AllTaken [] := by simp [AllTaken]

@[simp] theorem cons_iff : AllTaken (name :: names) ↔ pathFault? name = none ∧ AllTaken names := by
  simp [AllTaken]

@[simp] theorem append_iff : AllTaken (names ++ more) ↔ AllTaken names ∧ AllTaken more := by
  simp only [AllTaken, List.mem_append]
  exact ⟨fun h => ⟨fun n hn => h n (.inl hn), fun n hn => h n (.inr hn)⟩,
    fun h n hn => hn.elim (h.1 n) (h.2 n)⟩

@[simp] theorem reverse_iff : AllTaken names.reverse ↔ AllTaken names := by simp [AllTaken]

theorem of_subset (h : AllTaken names) (hsubset : more ⊆ names) : AllTaken more :=
  fun name hname => h name (hsubset hname)

end AllTaken

/-! ## Paths -/

theorem forall_mem_intercalate {names : List Text} (hslash : Takes '/') :
    (∀ x ∈ List.intercalate "/" names, Takes x) ↔ ∀ name ∈ names, ∀ x ∈ name, Takes x := by
  have hseparator : ∀ x ∈ Text.ofString "/", Takes x := by
    intro x hx
    cases List.mem_singleton.1 hx
    exact hslash
  induction names with
  | nil => simp [List.intercalate]
  | cons name names ih =>
      cases names with
      | nil => simp [List.intercalate]
      | cons next names =>
          simp only [List.intercalate_cons_cons, List.forall_mem_append, ih]
          rw [List.forall_mem_cons (a := name)]
          exact ⟨fun h => ⟨h.1.1, h.2⟩, fun h => ⟨⟨h.1, hseparator⟩, h.2⟩⟩

theorem takes_of_mem_rootText {root : Root} {x : CodePoint}
    (h : x ∈ Text.ofString (Path.Root.text root)) : Takes x := by
  have hslash : Takes '/' := ⟨rfl, by decide⟩
  cases root with
  | relative => cases h
  | single =>
      cases List.mem_singleton.1 h
      exact hslash
  | double =>
      rcases List.mem_cons.1 h with rfl | h
      · exact hslash
      · cases List.mem_singleton.1 h
        exact hslash

/-- The system takes a path if it takes its names. -/
theorem pathFault?_text {p : Path} : pathFault? p.text = none ↔ AllTaken p.parts := by
  have hslash : Takes '/' := ⟨rfl, by decide⟩
  have htext : (∀ x ∈ p.text, Takes x) ↔
      ∀ x ∈ Text.ofString (Path.Root.text p.root) ++ List.intercalate "/" p.parts,
        Takes x := by
    unfold Path.text
    dsimp only
    split
    · next hempty =>
        rw [List.isEmpty_iff.1 hempty]
        have hdot : ∀ x ∈ Text.ofString ".", Takes x := by
          intro x hx
          cases List.mem_singleton.1 hx
          exact ⟨rfl, by decide⟩
        exact ⟨fun _ => by simp, fun _ => hdot⟩
    · exact Iff.rfl
  rw [pathFault?_eq_none_iff, htext]
  simp only [AllTaken, pathFault?_eq_none_iff, List.forall_mem_append,
    forall_mem_intercalate hslash]
  exact ⟨fun h => h.2, fun h => ⟨fun x hx => takes_of_mem_rootText hx, h⟩⟩

theorem mem_of_mem_pieces {s piece : Text} (hpiece : piece ∈ Path.pieces s) : piece ⊆ s := by
  induction s generalizing piece with
  | nil =>
      cases List.mem_singleton.1 hpiece
      exact List.Subset.refl _
  | cons x s ih =>
      unfold Path.pieces at hpiece
      split at hpiece
      · cases List.mem_singleton.1 hpiece
        exact List.nil_subset _
      · next first rest hpieces =>
          rw [hpieces] at ih
          have hrest : ∀ q ∈ rest, q ⊆ x :: s := fun q hq =>
            List.Subset.trans (ih (.tail _ hq)) (List.subset_cons_self x s)
          have hfirst : first ⊆ s := ih (.head _)
          split at hpiece
          · rcases List.mem_cons.1 hpiece with rfl | hpiece
            · exact List.nil_subset _
            · rcases List.mem_cons.1 hpiece with rfl | hpiece
              · exact List.Subset.trans hfirst (List.subset_cons_self x s)
              · exact hrest piece hpiece
          · rcases List.mem_cons.1 hpiece with rfl | hpiece
            · exact List.cons_subset_cons x hfirst
            · exact hrest piece hpiece

theorem allTaken_pieces {s : Text} (h : pathFault? s = none) : AllTaken (Path.pieces s) := by
  rw [pathFault?_eq_none_iff] at h
  intro piece hpiece
  rw [pathFault?_eq_none_iff]
  exact fun x hx => h x (mem_of_mem_pieces hpiece hx)

theorem allTaken_parse {s : Text} (h : pathFault? s = none) : AllTaken (Path.parse s).parts :=
  (allTaken_pieces h).of_subset fun _ hname => (List.mem_filter.1 hname).1

theorem allTaken_div {base p : Path} (hbase : AllTaken base.parts) (hp : AllTaken p.parts) :
    AllTaken (base / p).parts := by
  change AllTaken (base.join p).parts
  unfold Path.join
  split
  · exact hp
  · exact AllTaken.append_iff.2 ⟨hbase, hp⟩

/-! ## Resolutions -/

/-- What a resolution comes to if it meets only texts that the system takes.  Otherwise only
the place of its result is known to be taken. -/
def Fine (clean : Prop) : Except Obstacle Way → Prop
  | .ok way => AllTaken way.place ∧ (clean → AllTaken way.back)
  | .error (.loop p) => clean → AllTaken p.parts
  | .error (.refused _) => ¬clean

variable {fs : FileSystem} {clean : Prop} {way : Way} {names : List Text}

theorem fine_loop {link : Way} (h : clean → AllTaken link.back) :
    Fine clean (.error (.loop link.path)) := by
  intro hclean
  exact AllTaken.reverse_iff.2 (h hclean)

theorem Fine.behind {obstacle : Obstacle} (h : Fine clean (.error obstacle))
    (hnames : clean → AllTaken names) : Fine clean (.error (obstacle.behind names)) := by
  cases obstacle with
  | refused fault => exact h
  | loop p =>
      unfold Obstacle.behind
      dsimp only
      split
      · exact fun hclean => AllTaken.append_iff.2 ⟨h hclean, hnames hclean⟩
      · exact hnames

/-- A name that a resolution goes on with is taken. -/
theorem pathFault?_of_checked {name : Text}
    (h : (if (Text.encodeFault? name).isSome || name.contains '\x00' then
      pathFault? (way.down name).path.text else none) = none) : pathFault? name = none := by
  split at h
  · have hway : AllTaken (way.down name).back := AllTaken.reverse_iff.1 (pathFault?_text.1 h)
    exact (AllTaken.cons_iff.1 hway).1
  · next hgood =>
      simp only [Bool.or_eq_true, not_or, Bool.not_eq_true, Option.isSome_eq_false_iff,
        Option.isNone_iff_eq_none] at hgood
      simp only [pathFault?, hgood.1, hgood.2, Bool.false_eq_true, if_false]

/-- The names of a way are taken one level up. -/
theorem allTaken_up (h : AllTaken way.back) : AllTaken way.up.back := by
  unfold Way.up
  dsimp only
  split
  · exact h.of_subset (List.drop_subset 1 way.back)
  · exact AllTaken.cons_iff.2 ⟨by decide, h⟩

/-- If the text of a way is refused, a name in it is. -/
theorem not_clean_of_checked {name : Text} {fault : PathFault}
    (h : (if (Text.encodeFault? name).isSome || name.contains '\x00' then
      pathFault? (way.down name).path.text else none) = some fault)
    (hback : clean → AllTaken way.back) (hname : clean → pathFault? name = none) : ¬clean := by
  intro hclean
  have htaken : AllTaken (way.down name).path.parts :=
    AllTaken.reverse_iff.2 (AllTaken.cons_iff.2 ⟨hname hclean, hback hclean⟩)
  rw [pathFault?_text.2 htaken, ite_self] at h
  cases h

/-- Resolving names keeps to texts that are taken if resolving links does. -/
theorem resolveNames_fine {follow : Way → Way → Text → Except Obstacle Way}
    (hlinks : clean → ∀ place target, fs.entry? place = some (.link target) →
      pathFault? target = none)
    (hfollow : ∀ above link target, AllTaken above.place → (clean → AllTaken above.back) →
      (clean → AllTaken link.back) → (clean → pathFault? target = none) →
      Fine clean (follow above link target))
    (hplace : AllTaken way.place) (hback : clean → AllTaken way.back)
    (hnames : clean → AllTaken names) : Fine clean (fs.resolveNames follow way names) := by
  induction names generalizing way with
  | nil => exact ⟨hplace, hback⟩
  | cons name names ih =>
      have hname (hclean : clean) := (AllTaken.cons_iff.1 (hnames hclean)).1
      have hrest (hclean : clean) := (AllTaken.cons_iff.1 (hnames hclean)).2
      unfold resolveNames
      split
      · exact ih hplace hback hrest
      · split
        · exact ih (hplace.of_subset (List.drop_subset 1 way.place))
            (fun hclean => allTaken_up (hback hclean)) hrest
        · dsimp only
          split
          · next fault hfault => exact not_clean_of_checked hfault hback hname
          · next hfault =>
              have hname : pathFault? name = none := pathFault?_of_checked hfault
              have hdown : AllTaken (way.down name).place := AllTaken.cons_iff.2 ⟨hname, hplace⟩
              have hdownBack (hclean : clean) : AllTaken (way.down name).back :=
                AllTaken.cons_iff.2 ⟨hname, hback hclean⟩
              split
              · next target hentry =>
                  have htarget (hclean : clean) : pathFault? target = none := by
                    split at hentry
                    · cases hentry
                    · exact hlinks hclean _ _ hentry
                  have hlink := hfollow way (way.down name) target hplace hback hdownBack htarget
                  split
                  · next end' hend =>
                      rw [hend] at hlink
                      exact ih hlink.1 hlink.2 hrest
                  · next obstacle hobstacle =>
                      rw [hobstacle] at hlink
                      exact hlink.behind hrest
              · exact ih hdown hdownBack hrest

theorem resolveLink_fine {depth : Nat} {active : List Way}
    (hlinks : clean → ∀ place target, fs.entry? place = some (.link target) →
      pathFault? target = none) {above link : Way} {target : Text}
    (hplace : AllTaken above.place) (hback : clean → AllTaken above.back)
    (hlink : clean → AllTaken link.back) (htarget : clean → pathFault? target = none) :
    Fine clean (fs.resolveLink depth active above link target) := by
  induction depth generalizing active above link target with
  | zero => exact fine_loop hlink
  | succ depth ih =>
      unfold resolveLink
      split
      · exact fine_loop hlink
      · have hpieces (hclean : clean) : AllTaken (targetPieces target) := by
          have hall := allTaken_pieces (htarget hclean)
          unfold targetPieces
          split
          · exact hall.of_subset (List.drop_subset 1 _)
          · exact hall
        have hfollow : ∀ above' link' target', AllTaken above'.place →
            (clean → AllTaken above'.back) → (clean → AllTaken link'.back) →
            (clean → pathFault? target' = none) →
            Fine clean (fs.resolveLink depth (link :: active) above' link' target') :=
          fun _ _ _ hplace' hback' hlink' htarget' => ih hplace' hback' hlink' htarget'
        split
        · exact resolveNames_fine hlinks hfollow AllTaken.nil (fun _ => AllTaken.nil) hpieces
        · exact resolveNames_fine hlinks hfollow hplace hback hpieces

theorem allTaken_settled {current : List Text} {p : Path} (hcurrent : AllTaken current)
    (hp : AllTaken p.parts) : AllTaken (settled current p).parts := by
  have hbelow : ∀ names place : List Text, AllTaken names → AllTaken place →
      AllTaken (placeBelow place names) := by
    intro names
    induction names with
    | nil => exact fun _ _ hplace => hplace
    | cons name names ih =>
        intro place hnames hplace
        obtain ⟨hname, hnames⟩ := AllTaken.cons_iff.1 hnames
        rw [placeBelow, List.foldl_cons]
        refine ih _ hnames ?_
        split
        · exact hplace
        · split
          · exact hplace.of_subset (List.drop_subset 1 place)
          · exact AllTaken.cons_iff.2 ⟨hname, hplace⟩
  refine AllTaken.reverse_iff.2 (hbelow p.parts _ hp ?_)
  split
  · exact AllTaken.nil
  · exact AllTaken.reverse_iff.2 hcurrent

variable {current : List Text} {p : Path}

theorem resolveNames_start_fine (fs : FileSystem) (p : Path) (clean : Prop)
    (hcurrent : AllTaken current)
    (hlinks : clean → ∀ place target, fs.entry? place = some (.link target) →
      pathFault? target = none) (hp : clean → AllTaken p.parts) (depth : Nat) :
    Fine clean (fs.resolveNames (fs.resolveLink depth [])
      (if p.isAbsolute then .root else .here current) p.parts) := by
  have hfollow : ∀ above link target, AllTaken above.place → (clean → AllTaken above.back) →
      (clean → AllTaken link.back) → (clean → pathFault? target = none) →
      Fine clean (fs.resolveLink depth [] above link target) :=
    fun _ _ _ hplace hback hlink htarget => resolveLink_fine hlinks hplace hback hlink htarget
  split
  · exact resolveNames_fine hlinks hfollow AllTaken.nil (fun _ => AllTaken.nil) hp
  · exact resolveNames_fine hlinks hfollow (AllTaken.reverse_iff.2 hcurrent)
      (fun _ => AllTaken.nil) hp

theorem eq_of_inspected {path dir : Path} (h : fs.inspected current path = .ok dir) :
    dir = path := by
  unfold inspected at h
  split at h
  · cases h
  · cases h
    rfl

theorem inspected_eq_error {path : Path} {fault : ResolveFault}
    (h : fs.inspected current path = .error fault) :
    fault = .linkLoop path ∧ fs.walk current path = .error .linkLoop := by
  unfold inspected at h
  split at h
  · next hwalk =>
      cases h
      exact ⟨rfl, hwalk⟩
  · cases h

/-- The system takes a directory that a path resolves to. -/
theorem pathFault?_of_resolve {dir : Path} (hcurrent : AllTaken current)
    (h : fs.resolve current p = .ok dir) : pathFault? dir.text = none := by
  have hfine := fs.resolveNames_start_fine p False hcurrent False.elim False.elim
    ((current.length + 2) * fs.linkCount + 1)
  unfold resolve at h
  dsimp only at h
  split at h
  · next way hway =>
      rw [hway] at hfine
      rw [eq_of_inspected h]
      exact pathFault?_text.2 (AllTaken.reverse_iff.2 hfine.1)
  · cases h
  · split at h
    · cases h
    · next htaken =>
        rw [eq_of_inspected h]
        exact htaken

/-- A path of texts that are taken has a resolution, or leads into a loop of links. -/
theorem resolve_eq_error {fault : ResolveFault} (hcurrent : AllTaken current)
    (hlinks : ∀ place target, fs.entry? place = some (.link target) → pathFault? target = none)
    (hp : AllTaken p.parts) (h : fs.resolve current p = .error fault) :
    ∃ path, fault = .linkLoop path ∧ fs.walk current path = .error .linkLoop := by
  have hfine := fs.resolveNames_start_fine p True hcurrent (fun _ => hlinks) (fun _ => hp)
    ((current.length + 2) * fs.linkCount + 1)
  unfold resolve at h
  dsimp only at h
  split at h
  · exact ⟨_, inspected_eq_error h⟩
  · next hrefused =>
      rw [hrefused] at hfine
      exact absurd trivial hfine
  · next loop hloop =>
      rw [hloop] at hfine
      rw [pathFault?_text.2 (allTaken_settled hcurrent (hfine trivial))] at h
      exact ⟨_, inspected_eq_error h⟩

end FileSystem
end Bindery
