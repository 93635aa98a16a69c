import Bindery.Proofs.Log.Lines
import Mathlib.Data.List.Basic

/-!
# What a line of a log tells

`IsLogLine` says of a line that it is that of an event with a level, a component and an action,
in the format of the log.  A JSON line is read back, and a text line has its parts one after the
other.  Every event has such a line (`Event.isLogLine_line`), and a line has one level and one
component only (`IsLogLine.labels_eq`).

`TellsOf` says of lines that some of them tell of things, in the order of the things, and that
the others tell of no such thing.
-/

namespace Bindery

open Text (joined)

/-! ## Lines -/

/-- The members that the JSON line of an event has. -/
def logMembers (now : Timestamp) (ctx : Context) (level component action : Text)
    (fields : List (Text × Json)) : List (Text × Json) :=
  ("ts", .text (now.iso "T")) :: ("level", .text level) :: ("run_id", .text (joined ctx.runId)) ::
    ("component", .text component) :: ("action", .text action) :: fields

/-- The line is that of an event with some labels and fields.  JSON has the fields as members,
and a text line shows them at its end. -/
def IsLogLine (now : Timestamp) (ctx : Context) (level component action : Text)
    (fields : List (Text × Json)) (shown line : Text) : Prop :=
  if ctx.logJson then
    ∃ read, IsJsonLine line (.object read) ∧
      read.Perm (logMembers now ctx level component action fields)
  else
    line = List.flatten ["ts=", now.iso "T", " level=", level, " run_id=", ctx.runId,
      " component=", component, " action=", action, shown]

variable {now : Timestamp} {ctx : Context} {e : Event}

theorem Text.ofString_injective {s t : String} (h : Text.ofString s = Text.ofString t) : s = t :=
  String.toList_inj.1 (List.map_injective_iff.2 (fun _ _ => CodePoint.char.inj) h)

@[simp] theorem Text.ofString_eq_nil_iff {s : String} : Text.ofString s = [] ↔ s = "" :=
  List.map_eq_nil_iff.trans String.toList_eq_nil_iff

/-- A text is split in one way where a character stands for the first time. -/
theorem Text.append_cons_inj {sep : CodePoint} {s s' t t' : Text} (h : sep ∉ s) (h' : sep ∉ s')
    (heq : s ++ sep :: t = s' ++ sep :: t') : s = s' ∧ t = t' := by
  induction s generalizing s' with
  | nil =>
      cases s' with
      | nil => exact ⟨rfl, List.tail_eq_of_cons_eq heq⟩
      | cons c s' => exact absurd (List.head_eq_of_cons_eq heq ▸ .head _) h'
  | cons c s ih =>
      cases s' with
      | nil => exact absurd (List.head_eq_of_cons_eq heq ▸ .head _) h
      | cons c' s' =>
          obtain rfl := List.head_eq_of_cons_eq heq
          obtain ⟨rfl, rfl⟩ := ih (fun hmem => h (.tail _ hmem)) (fun hmem => h' (.tail _ hmem))
            (List.tail_eq_of_cons_eq heq)
          exact ⟨rfl, rfl⟩

/-- A line is read as one value. -/
theorem IsJsonLine.eq {line : Text} {v v' : Json} (h : IsJsonLine line v)
    (h' : IsJsonLine line v') : v = v' := by
  obtain ⟨s, rfl, -, hread⟩ := h
  obtain ⟨t, ht, -, hread'⟩ := h'
  rw [← Text.ofString_injective ht, hread] at hread'
  exact Option.some.inj hread'

/-! ## Events -/

/-- An event whose fields have distinct names of their own can be read if its values can be. -/
theorem Event.isReadable_of_names (names : List Text) (hnames : e.fields.map Prod.fst = names)
    (hdistinct : (Event.partNames ++ names.map joined).Nodup)
    (hvalues : ∀ v ∈ e.fields.map Prod.snd, v.IsReadable fun _ => True) :
    e.IsReadable fun _ => True where
  texts := ⟨trivial, trivial, trivial⟩
  fields f hf := ⟨trivial, hvalues _ (List.mem_map_of_mem hf)⟩
  names := by
    rwa [← hnames, List.map_map] at hdistinct

theorem intercalate_blank (first : Text) (rest : List Text) :
    List.intercalate " " (first :: rest) =
      first ++ rest.flatMap fun t => Text.ofString " " ++ t := by
  induction rest generalizing first with
  | nil => simp
  | cons next rest ih =>
      rw [List.intercalate_cons_cons, ih, List.flatMap_cons, List.append_assoc, List.append_assoc]

/-- A time of its own is no field of an event that can be read. -/
theorem Event.IsReadable.shownTime {p : Text → Prop} (h : e.IsReadable p) :
    e.shownTime now = now.iso "T" := by
  have hnone : Json.valueOf? "ts" e.fields = none := by
    refine List.lookup_eq_none_iff.2 fun f hf => ?_
    have hdistinct : Text.ofString "ts" ≠ joined f.1 :=
      (List.nodup_append.1 h.names).2.2 _ (.head _) _
        (List.mem_map_of_mem (f := fun f : Text × Json => joined f.1) hf)
    refine bne_iff_ne.2 fun heq => hdistinct ?_
    rw [← heq]
    exact (Text.isSettled_ofString "ts").symm
  rw [Event.shownTime, hnone, Option.map_none, Option.getD_none]

theorem Event.plain_int (n : Int) : plain (.int n) = toString n := rfl

theorem Event.plain_text (s : Text) : plain (.text s) = s := rfl

/-- The fields of a text line. -/
def shownFields (fields : List (Text × Json)) : Text :=
  (Text.sortOn (fun field => field.1) fields).flatMap fun field =>
    Text.ofString " " ++ Event.pair field.1 (Event.plain field.2)

theorem shownFields_eq {fields : List (Text × Json)} (sorted : List (Text × Json))
    (h : Text.sortOn (fun field => field.1) fields = sorted) :
    shownFields fields = (sorted.map fun field =>
      Text.ofString " " ++ field.1 ++ Text.ofString "=" ++ Event.plain field.2).flatten := by
  rw [shownFields, h, List.flatMap_def]
  simp only [Event.pair, List.append_assoc]

/-- The line of an event that can be read has its labels and its fields. -/
theorem Event.isLogLine_line {level component action : String} {fields : List (Text × Json)}
    {shown : Text} (h : e.IsReadable fun _ => True)
    (hlabels : e.level = level ∧ e.component = component ∧ e.action = action)
    (hfields : (e.fields.map fun f => (joined f.1, f.2.reread)) = fields)
    (hshown : shownFields e.fields = shown) :
    IsLogLine now ctx level component action fields shown (e.line now ctx) := by
  obtain ⟨hlevel, hcomponent, haction⟩ := hlabels
  unfold IsLogLine
  split
  · next hjson =>
      obtain ⟨read, hline, hperm⟩ := h.isJsonLine_line (fun _ _ => trivial) trivial trivial hjson
      refine ⟨read, hline, ?_⟩
      rw [members, List.map_append, hfields, parts, hlevel, hcomponent, haction] at hperm
      have hsettled (s : String) : joined (Text.ofString s) = Text.ofString s :=
        Text.isSettled_ofString s
      simp only [List.map_cons, List.map_nil, Json.reread, Json.orderedWith, hsettled,
        List.cons_append, List.nil_append] at hperm
      exact hperm
  · next htext =>
      have hpair (name : String) (value : Text) :
          pair name value = Text.ofString (name ++ "=") ++ value := by
        simp [pair, Text.ofString, Text.ofChars]
      have hblank (name : String) (value : Text) :
          Text.ofString " " ++ (Text.ofString name ++ value) =
            Text.ofString (" " ++ name) ++ value := by
        simp [Text.ofString, Text.ofChars]
      rw [line, if_neg htext, textLine, h.shownTime, List.cons_append, intercalate_blank,
        List.flatMap_append, List.flatMap_map, ← shownFields, hshown, hlevel, hcomponent, haction]
      simp only [List.flatMap_cons, List.flatMap_nil, List.append_nil, hpair, hblank,
        String.reduceAppend, List.append_assoc, List.flatten_cons, List.flatten_nil]

/-- A line has one level and one component. -/
theorem IsLogLine.labels_eq {level component action level' component' action' shown shown' : Text}
    {fields fields' : List (Text × Json)} {line : Text}
    (h : IsLogLine now ctx level component action fields shown line)
    (h' : IsLogLine now ctx level' component' action' fields' shown' line)
    (hown : (Event.partNames ++ fields.map Prod.fst).Nodup)
    (hblank : ∀ label ∈ [level, component, level', component'], CodePoint.char ' ' ∉ label) :
    level = level' ∧ component = component' := by
  simp only [List.forall_mem_cons, List.not_mem_nil, false_implies, implies_true, and_true]
    at hblank
  obtain ⟨hlevel, hcomponent, hlevel', hcomponent'⟩ := hblank
  unfold IsLogLine at h h'
  split at h
  · next hjson =>
      rw [if_pos hjson] at h'
      obtain ⟨read, hread, hperm⟩ := h
      obtain ⟨read', hread', hperm'⟩ := h'
      cases Json.object.inj (hread.eq hread')
      have hsame := hperm'.symm.trans hperm
      have hone := List.inj_on_of_nodup_map (f := Prod.fst)
        (l := logMembers now ctx level component action fields) hown
      have hlevels := hone (hsame.subset (.tail _ (.head _))) (.tail _ (.head _)) rfl
      have hcomponents := hone (hsame.subset (.tail _ (.tail _ (.tail _ (.head _)))))
        (.tail _ (.tail _ (.tail _ (.head _)))) rfl
      exact ⟨(Json.text.inj (congrArg Prod.snd hlevels)).symm,
        (Json.text.inj (congrArg Prod.snd hcomponents)).symm⟩
  · next htext =>
      rw [if_neg htext, h] at h'
      have hrun : Text.ofString " run_id=" = .char ' ' :: Text.ofString "run_id=" := by decide
      have haction : Text.ofString " action=" = .char ' ' :: Text.ofString "action=" := by decide
      simp only [List.flatten_cons, hrun, haction, List.cons_append, List.append_cancel_left_eq]
        at h'
      obtain ⟨hlevels, hrest⟩ := Text.append_cons_inj hlevel hlevel' h'
      simp only [List.append_cancel_left_eq] at hrest
      exact ⟨hlevels, (Text.append_cons_inj hcomponent hcomponent' hrest).1⟩

/-- The line of an event is none with another level or another component. -/
theorem Event.not_isLogLine {level component action : String} {level' component' action' : Text}
    {fields : List (Text × Json)} {shown : Text} (names : List Text)
    (hnames : fields.map Prod.fst = names) (hown : (Event.partNames ++ names).Nodup)
    (h : e.IsReadable fun _ => True)
    (hlabels : e.level = level ∧ e.component = component ∧ e.action = action)
    (hblank : ∀ label ∈ [level', component', Text.ofString level, Text.ofString component],
      CodePoint.char ' ' ∉ label)
    (hother : ¬(level' = level ∧ component' = component)) :
    ¬IsLogLine now ctx level' component' action' fields shown (e.line now ctx) := fun hline =>
  hother (hline.labels_eq (isLogLine_line h hlabels rfl rfl) (hnames.symm ▸ hown) hblank)

/-! ## Logs -/

/-- Some of the lines tell of things, one line of each in their order, and the other lines tell
of no such thing. -/
inductive TellsOf {α : Type} (tells : α → Text → Prop) : List Text → List α → Prop where
  | nil : TellsOf tells [] []
  | told {line : Text} {x : α} {lines : List Text} {xs : List α} (h : tells x line)
      (rest : TellsOf tells lines xs) : TellsOf tells (line :: lines) (x :: xs)
  | other {line : Text} {lines : List Text} {xs : List α} (h : ∀ x, ¬tells x line)
      (rest : TellsOf tells lines xs) : TellsOf tells (line :: lines) xs

/-- Events of a kind have the lines that tell of things. -/
theorem tellsOf_of_filter {α : Type} {tells : α → Text → Prop} (kind : Event → Bool)
    (events : List Event) {xs : List α}
    (htold : List.Forall₂ (fun e x => tells x (e.line now ctx)) (events.filter kind) xs)
    (hother : ∀ e ∈ events, kind e = false → ∀ x, ¬tells x (e.line now ctx)) :
    TellsOf tells (events.map (Event.line now ctx)) xs := by
  induction events generalizing xs with
  | nil =>
      cases htold
      exact .nil
  | cons e events ih =>
      obtain ⟨hfirst, hrest⟩ := List.forall_mem_cons.1 hother
      rw [List.filter_cons] at htold
      cases hkind : kind e with
      | true =>
          rw [if_pos hkind] at htold
          cases htold with
          | cons htold hmore => exact .told htold (ih hmore hrest)
      | false =>
          rw [if_neg (by rw [hkind]; decide)] at htold
          exact .other (hfirst hkind) (ih htold hrest)

/-- A log is the lines of the events that are shown. -/
theorem log_eq_ofLines (now : Timestamp) (ctx : Context) (events : List Event) :
    log now ctx events = Text.ofLines ((events.filter (Event.isShown ctx)).map
      (Event.line now ctx)) := by
  rw [Text.ofLines, List.flatMap_map]
  rfl

end Bindery
