import Bindery.Path

/-!
# Names of paths

The names of a path that is read are not empty, are not `.`, and have no slash in them
(`hasNames_parse`), and a path below another one keeps to such names (`HasNames.div`).  A path
of such names is the one that its own text is read as (`parse_text`).
-/

namespace Bindery.Path

/-- A name that stands between slashes. -/
structure IsPlain (name : Text) : Prop where
  named : isName name = true
  noSlash : .char '/' ∉ name

/-- All names of a path are plain. -/
def HasNames (p : Path) : Prop := ∀ name ∈ p.parts, IsPlain name

/-! ## Pieces -/

variable {s name piece : Text} {names : List Text}

theorem pieces_ne_nil (s : Text) : pieces s ≠ [] := by
  cases s with
  | nil => simp [pieces]
  | cons x s =>
      simp only [pieces]
      split
      · simp
      · split <;> simp

theorem pieces_cons_slash (s : Text) : pieces (.char '/' :: s) = [] :: pieces s := by
  obtain ⟨first, rest, hs⟩ := List.exists_cons_of_ne_nil (pieces_ne_nil s)
  simp [pieces, hs]

theorem pieces_cons {x : CodePoint} (hx : x ≠ .char '/') {rest : List Text}
    (hs : pieces s = piece :: rest) : pieces (x :: s) = (x :: piece) :: rest := by
  simp [pieces, hs, hx]

theorem pieces_of_noSlash (h : .char '/' ∉ name) : pieces name = [name] := by
  induction name with
  | nil => rfl
  | cons x name ih =>
      simp only [List.mem_cons, not_or] at h
      exact pieces_cons (Ne.symm h.1) (ih h.2)

theorem pieces_append_slash (h : .char '/' ∉ name) (s : Text) :
    pieces (name ++ .char '/' :: s) = name :: pieces s := by
  induction name with
  | nil => exact pieces_cons_slash s
  | cons x name ih =>
      simp only [List.mem_cons, not_or] at h
      exact pieces_cons (Ne.symm h.1) (ih h.2)

/-- Names without slashes are what is between the slashes of their text. -/
theorem pieces_intercalate (hne : names ≠ []) (h : ∀ name ∈ names, .char '/' ∉ name) :
    pieces (List.intercalate (Text.ofString "/") names) = names := by
  induction names with
  | nil => exact absurd rfl hne
  | cons name names ih =>
      rw [List.forall_mem_cons] at h
      cases names with
      | nil => simpa [List.intercalate] using pieces_of_noSlash h.1
      | cons next names =>
          rw [List.intercalate_cons_cons, List.append_assoc]
          have hrest := ih (List.cons_ne_nil _ _) h.2
          exact (pieces_append_slash h.1 _).trans (congrArg (List.cons name) hrest)

theorem noSlash_of_mem_pieces (h : piece ∈ pieces s) : .char '/' ∉ piece := by
  induction s generalizing piece with
  | nil => simp_all [pieces]
  | cons x s ih =>
      obtain ⟨first, rest, hs⟩ := List.exists_cons_of_ne_nil (pieces_ne_nil s)
      have hfirst : .char '/' ∉ first := ih (by simp [hs])
      have hrest : ∀ q ∈ rest, .char '/' ∉ q := fun q hq => ih (by simp [hs, hq])
      by_cases hx : x = .char '/'
      · subst hx
        rw [pieces_cons_slash, hs] at h
        simp only [List.mem_cons] at h
        obtain rfl | rfl | h := h
        · simp
        · exact hfirst
        · exact hrest piece h
      · rw [pieces_cons hx hs, List.mem_cons] at h
        obtain rfl | h := h
        · simpa [Ne.symm hx] using hfirst
        · exact hrest piece h

/-! ## Paths that are read -/

theorem hasNames_parse (s : Text) : (parse s).HasNames := by
  intro name hname
  obtain ⟨hpiece, hnamed⟩ := List.mem_filter.1 hname
  exact ⟨hnamed, noSlash_of_mem_pieces hpiece⟩

theorem HasNames.div {base p : Path} (hbase : base.HasNames) (hp : p.HasNames) :
    (base / p).HasNames := by
  change (base.join p).HasNames
  unfold join
  split
  · exact hp
  · intro name hname
    exact (List.mem_append.1 hname).elim (hbase name) (hp name)

theorem isAbsolute_div {base p : Path} (h : base.isAbsolute = true) :
    (base / p).isAbsolute = true := by
  change (base.join p).isAbsolute = true
  unfold join
  split
  · next hp => exact hp
  · exact h

theorem div_div (base p q : Path) : base / p / q = base / (p / q) := by
  change (base.join p).join q = base.join (p.join q)
  unfold join
  cases hq : q.isAbsolute with
  | true => simp [hq]
  | false => cases hp : p.isAbsolute <;> simp_all [isAbsolute]

/-! ## Paths that are written -/

theorem IsPlain.ne_nil (h : IsPlain name) : name ≠ [] := by
  rintro rfl
  simpa [isName] using h.named

/-- The root of a text is told by the slashes in front of something else. -/
theorem rootOf_of_head (h : s.head? ≠ some (.char '/')) :
    rootOf s = .relative ∧ rootOf (.char '/' :: s) = .single ∧
      rootOf (.char '/' :: .char '/' :: s) = .double := by
  cases s with
  | nil => exact ⟨rfl, rfl, rfl⟩
  | cons x s =>
      have hx : x ≠ .char '/' := by simpa using h
      simp [rootOf, hx]

theorem head?_intercalate (h : ∀ name ∈ names, IsPlain name) :
    (List.intercalate (Text.ofString "/") names).head? ≠ some (.char '/') := by
  cases names with
  | nil => simp [List.intercalate]
  | cons name names =>
      have hplain := h name (.head _)
      have hslash := hplain.noSlash
      obtain ⟨x, rest, rfl⟩ := List.exists_cons_of_ne_nil hplain.ne_nil
      have hx : x ≠ .char '/' := by
        rintro rfl
        exact hslash (.head _)
      cases names with
      | nil => simpa [List.intercalate] using hx
      | cons next names => simpa [List.intercalate_cons_cons] using hx

theorem text_relative {parts : List Text}
    (h : List.intercalate (Text.ofString "/") parts ≠ []) :
    text ⟨.relative, parts⟩ = List.intercalate (Text.ofString "/") parts := by
  have hnil : Text.ofString (Root.text .relative) = [] := rfl
  simp only [text, hnil, List.nil_append, List.isEmpty_iff, if_neg h]

theorem text_single (parts : List Text) :
    text ⟨.single, parts⟩ = .char '/' :: List.intercalate (Text.ofString "/") parts := by
  simp [text, Root.text, Text.ofString, Text.ofChars]

theorem text_double (parts : List Text) : text ⟨.double, parts⟩ =
    .char '/' :: .char '/' :: List.intercalate (Text.ofString "/") parts := by
  simp [text, Root.text, Text.ofString, Text.ofChars]

theorem intercalate_ne_nil (hne : names ≠ []) (h : ∀ name ∈ names, IsPlain name) :
    List.intercalate (Text.ofString "/") names ≠ [] := by
  obtain ⟨name, names, rfl⟩ := List.exists_cons_of_ne_nil hne
  have hname := (h name (.head _)).ne_nil
  cases names <;> simp [List.intercalate, hname]

/-- A path of plain names is the path of its own text. -/
theorem parse_text {p : Path} (h : p.HasNames) : parse p.text = p := by
  obtain ⟨root, parts⟩ := p
  obtain ⟨hrelative, hsingle, hdouble⟩ := rootOf_of_head (head?_intercalate h)
  have hpieces : (pieces (List.intercalate (Text.ofString "/") parts)).filter isName = parts := by
    by_cases hne : parts = []
    · subst hne
      rfl
    · rw [pieces_intercalate hne fun name hname => (h name hname).noSlash]
      exact List.filter_eq_self.2 fun name hname => (h name hname).named
  cases root with
  | relative =>
      by_cases hne : parts = []
      · subst hne
        rfl
      · rw [text_relative (intercalate_ne_nil hne h), parse, hrelative, hpieces]
  | single =>
      rw [text_single, parse, hsingle, pieces_cons_slash, List.filter_cons_of_neg (by decide),
        hpieces]
  | double =>
      rw [text_double, parse, hdouble, pieces_cons_slash, pieces_cons_slash,
        List.filter_cons_of_neg (by decide), List.filter_cons_of_neg (by decide), hpieces]

end Bindery.Path
