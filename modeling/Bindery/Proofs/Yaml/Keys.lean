import Bindery.Yaml.Document

/-!
# The keys of a mapping

No two entries of a mapping have one key, however the file is written: the later of two
entries sets the earlier one (`putEntry_keysDiffer`).  As each act of building keeps this for
the cells that are built so far, it holds of every cell of a document that is read
(`Document.isKeyed_of_read`).
-/

namespace Bindery.Yaml

/-- No two entries have one key. -/
def KeysDiffer (entries : List (Atom × NodeId)) : Prop :=
  entries.Pairwise fun entry other => entry.1.same other.1 = false

/-- A mapping has no key twice. -/
def Cell.IsKeyed : Cell → Prop
  | .mapping entries => KeysDiffer entries
  | _ => True

/-- Setting an entry adds its key, or no key at all. -/
theorem mem_putEntry {key : Atom} {value : NodeId} {entries : List (Atom × NodeId)}
    {entry : Atom × NodeId} (h : entry ∈ putEntry key value entries) :
    entry.1 = key ∨ ∃ old ∈ entries, old.1 = entry.1 := by
  induction entries with
  | nil =>
      rw [putEntry, List.mem_singleton] at h
      exact .inl (by rw [h])
  | cons first entries ih =>
      rw [putEntry] at h
      split at h
      all_goals rcases List.mem_cons.1 h with rfl | h
      · exact .inr ⟨first, List.mem_cons_self, rfl⟩
      · exact .inr ⟨entry, List.mem_cons_of_mem _ h, rfl⟩
      · exact .inr ⟨first, List.mem_cons_self, rfl⟩
      · rcases ih h with hkey | ⟨old, hold, hentry⟩
        · exact .inl hkey
        · exact .inr ⟨old, List.mem_cons_of_mem _ hold, hentry⟩

theorem putEntry_keysDiffer {entries : List (Atom × NodeId)} (h : KeysDiffer entries) (key : Atom)
    (value : NodeId) : KeysDiffer (putEntry key value entries) := by
  induction entries with
  | nil => exact List.pairwise_singleton _ _
  | cons first entries ih =>
      obtain ⟨hfirst, hrest⟩ := List.pairwise_cons.1 h
      rw [putEntry]
      split
      case isTrue => exact List.pairwise_cons.2 ⟨hfirst, hrest⟩
      case isFalse hsame =>
        refine List.pairwise_cons.2 ⟨fun entry hentry => ?_, ih hrest⟩
        rcases mem_putEntry hentry with hkey | ⟨old, hold, hkey⟩
        · rw [hkey]
          exact eq_false_of_ne_true hsame
        · rw [← hkey]
          exact hfirst old hold

/-! ## Acts of building -/

/-- Two steps in a row succeed if both of them do. -/
theorem exists_of_bind_eq_ok {ε α β : Type} {x : Except ε α} {f : α → Except ε β} {b : β}
    (h : x >>= f = .ok b) : ∃ a, x = .ok a ∧ f a = .ok b := by
  cases x with
  | error e => cases h
  | ok a => exact ⟨a, rfl, h⟩

/-- No cell that is built has a key twice. -/
def Builder.IsKeyed (b : Builder) : Prop :=
  ∀ id cell, b.cells.getD id none = some cell → cell.IsKeyed

/-- An act keeps the cells keyed, and what it results in has a property. -/
def Build.Keeps {α : Type} (act : Build α) (good : α → Prop) : Prop :=
  ∀ b b' a, b.IsKeyed → act.run b = .ok (a, b') → b'.IsKeyed ∧ good a

namespace Build.Keeps

variable {α β : Type} {good : α → Prop} {fine : β → Prop}

theorem pure {a : α} (h : good a) : Keeps (pure a) good := by
  rintro b b' a' hb ⟨⟩
  exact ⟨hb, h⟩

theorem error {act : Build α} {e : Builder → Error} (h : ∀ b, act.run b = .error (e b)) :
    Keeps act good := by
  intro b b' a hb hrun
  rw [h] at hrun
  cases hrun

theorem bind {act : Build α} {f : α → Build β} (h : Keeps act good)
    (h' : ∀ a, good a → Keeps (f a) fine) : Keeps (act >>= f) fine := by
  intro b b'' x hb hrun
  rw [StateT.run_bind] at hrun
  obtain ⟨⟨a, b'⟩, hact, hrun⟩ := exists_of_bind_eq_ok hrun
  obtain ⟨hb', ha⟩ := h b b' a hb hact
  exact h' a ha b' b'' x hb' hrun

/-- What is done to the builder besides its cells does not matter. -/
theorem modify {f : Builder → Builder} (h : ∀ b, (f b).cells = b.cells) :
    Keeps (modify f) fun _ => True := by
  rintro b b' ⟨⟩ hb ⟨⟩
  refine ⟨fun id cell hcell => hb id cell ?_, trivial⟩
  rwa [h] at hcell

theorem get : Keeps get Builder.IsKeyed := by
  rintro b b' a hb ⟨⟩
  exact ⟨hb, hb⟩

theorem set {b b' : Builder} (h : b.IsKeyed) (hcells : b'.cells = b.cells) :
    Keeps (set b') fun _ => True := by
  rintro b₀ b'' ⟨⟩ - ⟨⟩
  refine ⟨fun id cell hcell => h id cell ?_, trivial⟩
  rwa [hcells] at hcell

/-- An act that only looks at the builder keeps it. -/
theorem look {act : Build α} {f : Builder → α} (h : ∀ b, act.run b = .ok (f b, b)) :
    Keeps act fun _ => True := by
  intro b b' a hb hrun
  rw [h] at hrun
  cases hrun
  exact ⟨hb, trivial⟩

theorem lift (e : Except Error α) : Keeps (liftM e) fun _ => True := by
  intro b b' a hb hrun
  cases e with
  | error e => cases hrun
  | ok a' =>
      cases hrun
      exact ⟨hb, trivial⟩

theorem setCell (id : NodeId) (cell : Cell) (h : cell.IsKeyed) :
    Keeps (setCell id cell) fun _ => True := by
  rintro b b' ⟨⟩ hb ⟨⟩
  refine ⟨fun other found hfound => ?_, trivial⟩
  simp only [Array.getD_eq_getD_getElem?, Array.getElem?_setIfInBounds] at hfound
  split at hfound
  case isTrue =>
    split at hfound
    case isTrue =>
      cases hfound
      exact h
    case isFalse => cases hfound
  case isFalse =>
    rw [← Array.getD_eq_getD_getElem?] at hfound
    exact hb other found hfound

/-- What follows a check is only done if the check does not fail. -/
theorem guard {c : Prop} [Decidable c] {stop : Build Unit} {e : Builder → Error}
    {rest : Unit → Build α} (hstop : ∀ b, stop.run b = .error (e b)) (h : Keeps (rest ()) good) :
    Keeps (if c then stop >>= rest else rest ()) good := by
  split
  case isTrue => exact (error hstop : Keeps stop fun _ => True).bind fun _ _ => h
  case isFalse => exact h

theorem forIn {γ : Type} {act : γ → Build α} (h : ∀ x, Keeps (act x) fun _ => True)
    (xs : List γ) :
    Keeps (forIn xs PUnit.unit fun x _ => act x >>= fun _ => Pure.pure (.yield PUnit.unit))
      fun _ => True := by
  induction xs with
  | nil => exact pure trivial
  | cons x xs ih =>
      rw [List.forIn_cons]
      refine ((h x).bind fun _ _ => pure (a := ForInStep.yield PUnit.unit) (Eq.refl _)).bind ?_
      rintro _ rfl
      exact ih

theorem mapM {γ : Type} {f : γ → Build α} (h : ∀ x, Keeps (f x) fun _ => True) (xs : List γ) :
    Keeps (xs.mapM f) fun _ => True := by
  induction xs with
  | nil => exact pure trivial
  | cons x xs ih =>
      rw [List.mapM_cons]
      exact (h x).bind fun _ _ => ih.bind fun _ _ => pure trivial

theorem foldlM {γ : Type} {f : α → γ → Build α} (h : ∀ a x, good a → Keeps (f a x) good)
    (xs : List γ) {a : α} (ha : good a) : Keeps (xs.foldlM f a) good := by
  induction xs generalizing a with
  | nil => exact pure ha
  | cons x xs ih =>
      rw [List.foldlM_cons]
      exact (h a x ha).bind fun _ ha' => ih ha'

end Build.Keeps

namespace Build

theorem node_keeps (id : NodeId) : Keeps (node id) fun _ => True := .look fun _ => rfl

theorem fail_keeps {α : Type} (problem : Problem) (mark : Mark) (good : α → Prop) :
    Keeps (fail problem mark) good := .error fun _ => rfl

theorem failInside_keeps {α : Type} (context : Context) (start : Mark) (problem : Problem)
    (mark : Mark) (good : α → Prop) : Keeps (failInside context start problem mark) good :=
  .error fun _ => rfl

theorem scalar_keeps (id : NodeId) : Keeps (scalar id) fun _ => True := by
  unfold scalar
  refine Keeps.get.bind fun b _ => (Keeps.lift _).bind fun text _ => ?_
  refine .guard (fun _ => rfl) ?_
  dsimp only
  split
  · exact (Keeps.lift _).bind fun _ _ => .pure trivial
  · exact fail_keeps _ _ _

theorem emptyCell?_isKeyed {tag : Tag} {cell : Cell} (h : emptyCell? tag = some cell) :
    cell.IsKeyed := by
  unfold emptyCell? at h
  split at h <;> cases h
  case h_2 => exact .nil
  all_goals exact trivial

theorem build_keeps (id : NodeId) : Keeps (build id) fun _ => True := by
  unfold build
  refine (Keeps.look fun _ => rfl).bind fun cell? _ => ?_
  cases cell? with
  | some cell => exact .pure trivial
  | none =>
      refine (node_keeps id).bind fun n _ => ?_
      dsimp only
      split
      case h_1 cell hempty =>
        exact (Keeps.setCell id cell (emptyCell?_isKeyed hempty)).bind fun _ _ =>
          (Keeps.modify (by intro; rfl)).bind fun _ _ => .pure trivial
      case h_2 =>
        refine .guard (fun _ => rfl) ((scalar_keeps id).bind fun a _ => ?_)
        exact (Keeps.setCell id (.leaf a) trivial).bind fun _ _ => .pure trivial

theorem listOf_keeps (n : Node) : Keeps (listOf n) Cell.IsKeyed := by
  unfold listOf
  split
  case h_1 items _ =>
    refine (Keeps.forIn (fun item => ?_) items).bind fun _ _ => .pure trivial
    exact build_keeps item
  case h_2 => exact fail_keeps _ _ _

theorem entriesOf_keeps (id : NodeId) : Keeps (entriesOf id) KeysDiffer := by
  unfold entriesOf
  refine (node_keeps id).bind fun n _ => .guard (fun _ => rfl) ?_
  refine Keeps.get.bind fun b hb => (Keeps.lift _).bind fun flat _ => ?_
  refine (Keeps.set hb (by rfl)).bind fun _ _ =>
    .foldlM (fun entries entry hentries => ?_) _ List.Pairwise.nil
  refine (build_keeps entry.1).bind fun cell _ => ?_
  split
  case h_1 key =>
    exact (build_keeps entry.2).bind fun _ _ => .pure (putEntry_keysDiffer hentries key entry.2)
  case h_2 => exact (node_keeps entry.1).bind fun _ _ => failInside_keeps _ _ _ _ _

theorem pairsOf_keeps (context : Context) (n : Node) : Keeps (pairsOf context n) Cell.IsKeyed := by
  unfold pairsOf
  split
  case h_1 items _ =>
    refine (Keeps.mapM (fun item => ?_) items).bind fun _ _ => .pure trivial
    refine (node_keeps item).bind fun m _ => ?_
    split
    · exact (build_keeps _).bind fun _ _ => (build_keeps _).bind fun _ _ => .pure trivial
    · exact failInside_keeps _ _ _ _ _
    · exact failInside_keeps _ _ _ _ _
  case h_2 => exact failInside_keeps _ _ _ _ _

theorem collection_keeps (id : NodeId) : Keeps (collection id) Cell.IsKeyed := by
  unfold collection
  refine (node_keeps id).bind fun n _ => ?_
  split
  · exact (entriesOf_keeps id).bind fun _ hentries => .pure hentries
  · exact (entriesOf_keeps id).bind fun _ _ => .pure trivial
  · exact pairsOf_keeps _ n
  · exact pairsOf_keeps _ n
  · exact listOf_keeps n

theorem fillAll_keeps (fuel : Nat) : Keeps (fillAll fuel) fun _ => True := by
  induction fuel with
  | zero => exact .pure trivial
  | succ fuel ih =>
      unfold fillAll
      refine Keeps.get.bind fun b hb => ?_
      split
      case h_1 => exact .pure trivial
      case h_2 id waiting _ =>
        refine (Keeps.set hb (by rfl)).bind fun _ _ => ?_
        exact (collection_keeps id).bind fun _ hcell =>
          (Keeps.setCell id _ hcell).bind fun _ _ => ih

end Build

/-! ## Documents -/

namespace Document

variable {d : Document} {cs : List Char} {broken : Option Text.Utf8.Fault}

/-- No cell of the document has a key twice. -/
def IsKeyed (d : Document) : Prop := ∀ id cell, d.cells.getD id none = some cell → cell.IsKeyed

theorem isKeyed_of_ofGraph {graph : Graph} {root : NodeId} (h : ofGraph graph root = .ok d) :
    d.IsKeyed := by
  have hsteps : Build.Keeps (Build.build root >>= fun _ => Build.fillAll (graph.nodes.size + 1))
      fun _ => True :=
    (Build.build_keeps root).bind fun _ _ => Build.fillAll_keeps _
  have hempty : Builder.IsKeyed { graph, cells := Array.replicate graph.nodes.size none } := by
    intro id cell hcell
    simp only [Array.getD_eq_getD_getElem?, Array.getElem?_replicate] at hcell
    split at hcell <;> cases hcell
  obtain ⟨⟨_, b⟩, hrun, hd⟩ := exists_of_bind_eq_ok h
  cases hd
  exact (hsteps _ _ _ hempty hrun).1

theorem isKeyed_of_ofText (h : ofText cs = .ok (some d)) : d.IsKeyed := by
  obtain ⟨⟨graph, root⟩, -, h⟩ := exists_of_bind_eq_ok h
  cases root with
  | none => cases h
  | some root =>
      obtain ⟨d', hgraph, hd⟩ := exists_of_bind_eq_ok h
      cases hd
      exact isKeyed_of_ofGraph hgraph

theorem isKeyed_of_read (h : read cs broken = .ok (some d)) : d.IsKeyed := by
  unfold read at h
  split at h
  case h_1 => split at h <;> cases h
  case h_2 =>
    cases htext : ofText cs with
    | error e =>
        rw [htext] at h
        cases h
    | ok d? =>
        rw [htext] at h
        cases h
        exact isKeyed_of_ofText htext

theorem IsKeyed.rootCell (h : d.IsKeyed) : d.rootCell.IsKeyed := by
  unfold Document.rootCell
  cases hcell : d.cells.getD d.root none with
  | none => exact trivial
  | some cell => exact h _ _ hcell

end Document
end Bindery.Yaml
