import Bindery.Proofs.Log.Lines
import Bindery.Proofs.Text.Order
import Bindery.Proofs.Value.Literal

/-!
# Line ends in a text log

A text line shows the texts of an event as they are.  So it has the line ends of these texts and
no others (`lineEnds_textLine`), and a log has a line end for each event and for each one in
their texts (`lineEnds_log`).  A text that is shown at the end of a line may hold the line of
another event, and then the log is the same as with that event in it (`log_forged`).
-/

namespace Bindery

/-! ## Line ends -/

namespace Text

/-- The number of line ends in a text. -/
def lineEnds (s : Text) : Nat := s.count (.char '\n')

variable {s t sep : Text}

theorem lineEnds_append (s t : Text) : lineEnds (s ++ t) = lineEnds s + lineEnds t :=
  List.count_append

theorem lineEnds_eq_zero_iff : lineEnds s = 0 ↔ .char '\n' ∉ s := List.count_eq_zero

theorem lineEnds_flatten_eq_zero_iff {ts : List Text} :
    lineEnds ts.flatten = 0 ↔ ∀ t ∈ ts, .char '\n' ∉ t := by
  rw [lineEnds_eq_zero_iff, List.mem_flatten]
  simp only [not_exists, not_and]

theorem lineEnds_intercalate (h : .char '\n' ∉ sep) (ts : List Text) :
    lineEnds (List.intercalate sep ts) = lineEnds ts.flatten := by
  induction ts with
  | nil => simp
  | cons t ts ih =>
      cases ts with
      | nil => simp
      | cons next ts =>
          rw [List.intercalate_cons_cons, List.flatten_cons, lineEnds_append, lineEnds_append,
            lineEnds_append, ih, lineEnds_eq_zero_iff.2 h, Nat.add_zero]

/-- What is added to the last of some texts is added to all of them. -/
theorem intercalate_append_last (sep : Text) (ts : List Text) (s t : Text) :
    List.intercalate sep (ts ++ [s ++ t]) = List.intercalate sep (ts ++ [s]) ++ t := by
  induction ts with
  | nil => simp
  | cons first ts ih =>
      cases ts with
      | nil => simp [List.intercalate_cons_cons]
      | cons next ts =>
          simp only [List.cons_append, List.intercalate_cons_cons] at ih ⊢
          rw [ih, List.append_assoc, List.append_assoc, List.append_assoc]

/-! ## Sorting -/

section

variable {α : Type} {key : α → Text}

theorem insertOn_append_last {x y : α} (h : ¬before (key y) (key x) = true) (zs : List α) :
    insertOn key x (zs ++ [y]) = insertOn key x zs ++ [y] := by
  induction zs with
  | nil => exact if_neg h
  | cons z zs ih =>
      rw [List.cons_append, insertOn, insertOn, ih]
      split <;> rfl

/-- An element whose key stands behind all others is sorted to the end. -/
theorem sortOn_append_last {y : α} {xs : List α} (h : ∀ x ∈ xs, before (key x) (key y) = true) :
    sortOn key (xs ++ [y]) = sortOn key xs ++ [y] := by
  induction xs with
  | nil => rfl
  | cons x xs ih =>
      obtain ⟨hx, hxs⟩ := List.forall_mem_cons.1 h
      change insertOn key x (sortOn key (xs ++ [y])) = insertOn key x (sortOn key xs) ++ [y]
      rw [ih hxs, insertOn_append_last (not_before_of_before hx)]

end
end Text

open Text (lineEnds)

/-! ## Texts in a line -/

/-- The text that a value is, and nothing if it is another value. -/
def Json.bareText : Json → Text
  | .text s => s
  | _ => []

theorem Json.newline_mem_bareText (v : Json) :
    .char '\n' ∈ v.bareText ↔ ∃ s, v = .text s ∧ .char '\n' ∈ s := by
  cases v <;> simp [bareText]

namespace Event

variable {e : Event} {ctx : Context}

/-- The line ends of a plain value are those of a text. -/
theorem lineEnds_plain (v : Json) : lineEnds (plain v) = lineEnds v.bareText := by
  cases v with
  | text s => rfl
  | _ =>
      refine Text.lineEnds_eq_zero_iff.2 fun hmem => ?_
      obtain ⟨s, hs, -⟩ := (Value.mem_plain_iff _).1 hmem
      cases hs

/-- The texts that a text line shows as they are. -/
def bareTexts (ctx : Context) (e : Event) : List Text :=
  ((Json.valueOf? "ts" e.fields).map Json.bareText).getD [] :: e.level :: ctx.runId ::
    e.component :: e.action :: e.fields.flatMap fun field => [field.1, field.2.bareText]

/-- Level, component and action. -/
def labels (e : Event) : List Text := [e.level, e.component, e.action]

/-- Level, component and action have no line end in them. -/
def IsLabelled (e : Event) : Prop := ∀ label ∈ e.labels, .char '\n' ∉ label

theorem isLabelled_of_labels (labels : List Text) (h : e.labels = labels)
    (hlabels : ∀ label ∈ labels, .char '\n' ∉ label) : e.IsLabelled := by
  rwa [IsLabelled, h]

/-- The run, and the names and texts among the fields, have no line end in them. -/
def IsUnbroken (ctx : Context) (e : Event) : Prop :=
  .char '\n' ∉ ctx.runId ∧
    ∀ field ∈ e.fields, .char '\n' ∉ field.1 ∧ ∀ s, field.2 = .text s → .char '\n' ∉ s

theorem lineEnds_bareTexts_eq_zero_iff (h : e.IsLabelled) :
    lineEnds (e.bareTexts ctx).flatten = 0 ↔ e.IsUnbroken ctx := by
  obtain ⟨hlevel, hcomponent, haction⟩ : .char '\n' ∉ e.level ∧ .char '\n' ∉ e.component ∧
      .char '\n' ∉ e.action := by simpa [IsLabelled, labels] using h
  rw [Text.lineEnds_flatten_eq_zero_iff]
  constructor
  · intro hall
    refine ⟨hall _ (by simp [bareTexts]), fun field hfield => ?_⟩
    have hpair : ∀ t ∈ [field.1, field.2.bareText], t ∈ e.bareTexts ctx := by
      intro t ht
      have hmem : t ∈ e.fields.flatMap fun field => [field.1, field.2.bareText] :=
        List.mem_flatMap.2 ⟨field, hfield, ht⟩
      simp only [bareTexts, List.mem_cons, hmem, or_true]
    refine ⟨hall _ (hpair _ (.head _)), fun s hs => ?_⟩
    have hvalue := hall _ (hpair _ (.tail _ (.head _)))
    rwa [hs] at hvalue
  · rintro ⟨hrun, hfields⟩ t ht
    have hvalue : ∀ field ∈ e.fields, .char '\n' ∉ field.2.bareText := by
      intro field hfield hmem
      obtain ⟨s, hs, hmem⟩ := (Json.newline_mem_bareText _).1 hmem
      exact (hfields field hfield).2 s hs hmem
    simp only [bareTexts, List.mem_cons, List.mem_flatMap, List.not_mem_nil, or_false] at ht
    rcases ht with rfl | rfl | rfl | rfl | rfl | ⟨field, hfield, rfl | rfl⟩
    · cases htime : Json.valueOf? "ts" e.fields with
      | none => simp
      | some v =>
          obtain ⟨front, back, hfields, -⟩ := List.lookup_eq_some_iff.1 htime
          have hmem : (Text.ofString "ts", v) ∈ e.fields := by simp [hfields]
          exact hvalue _ hmem
    · exact hlevel
    · exact hrun
    · exact hcomponent
    · exact haction
    · exact (hfields field hfield).1
    · exact hvalue field hfield

/-! ## Lines -/

theorem lineEnds_shownTime (now : Timestamp) (e : Event) : lineEnds (e.shownTime now) =
    lineEnds (((Json.valueOf? "ts" e.fields).map Json.bareText).getD []) := by
  unfold shownTime
  cases Json.valueOf? "ts" e.fields with
  | none =>
      have hT : Unbroken "T" := by simp [Unbroken]
      have htime : .char '\n' ∉ Text.ofString (now.iso "T") := fun hmem =>
        Value.newline_mem_ofString.1 hmem (now.unbroken_iso hT)
      rw [Option.map_none, Option.map_none, Option.getD_none, Option.getD_none,
        Text.lineEnds_eq_zero_iff.2 htime]
      rfl
  | some v => exact lineEnds_plain v

theorem lineEnds_pair (name value : Text) :
    lineEnds (pair name value) = lineEnds name + lineEnds value := by
  have hequals : lineEnds "=" = 0 := by decide +kernel
  rw [pair, Text.lineEnds_append, Text.lineEnds_append, hequals, Nat.add_zero]

/-- The order of the fields does not matter for the line ends in them. -/
theorem lineEnds_fields (fields : List (Text × Json)) :
    lineEnds ((Text.sortOn (fun field => field.1) fields).map fun field =>
        pair field.1 (plain field.2)).flatten =
      lineEnds (fields.flatMap fun field => [field.1, field.2.bareText]).flatten := by
  have hperm := ((Text.sortOn_perm (fun field : Text × Json => field.1) fields).map fun field =>
    pair field.1 (plain field.2)).flatten
  rw [lineEnds, hperm.count_eq]
  change lineEnds _ = _
  induction fields with
  | nil => rfl
  | cons field fields ih =>
      have ih := ih ((Text.sortOn_perm _ fields).map _).flatten
      rw [List.map_cons, List.flatten_cons, List.flatMap_cons, List.flatten_append,
        Text.lineEnds_append, Text.lineEnds_append, ih, lineEnds_pair, lineEnds_plain]
      simp [Text.lineEnds_append]

/-- A text line has the line ends of the texts that it shows as they are. -/
theorem lineEnds_textLine (now : Timestamp) (ctx : Context) (e : Event) :
    lineEnds (e.textLine now ctx) = lineEnds (e.bareTexts ctx).flatten := by
  have hblank : CodePoint.char '\n' ∉ Text.ofString " " := by decide
  have hnames : lineEnds "ts" = 0 ∧ lineEnds "level" = 0 ∧ lineEnds "run_id" = 0 ∧
      lineEnds "component" = 0 ∧ lineEnds "action" = 0 := by decide +kernel
  obtain ⟨hts, hlevel, hrun, hcomponent, haction⟩ := hnames
  simp only [textLine, bareTexts, Text.lineEnds_intercalate hblank, List.flatten_cons,
    List.flatten_append, List.flatten_nil, List.append_nil, Text.lineEnds_append, lineEnds_fields,
    lineEnds_pair, lineEnds_shownTime, hts, hlevel, hrun, hcomponent, haction, Nat.zero_add]
  omega

/-- An event that is logged as text adds one line end of its own. -/
theorem lineEnds_line (htext : ctx.logJson = false) (now : Timestamp) (e : Event) :
    lineEnds (e.line now ctx) = lineEnds (e.bareTexts ctx).flatten := by
  rw [line, if_neg (by rw [htext]; decide), lineEnds_textLine]

end Event

/-! ## Logs -/

section

variable {ctx : Context} {events : List Event}

/-- A text log has a line end for each event that is shown and for each one in its texts. -/
theorem lineEnds_log (htext : ctx.logJson = false) (now : Timestamp) (events : List Event) :
    lineEnds (log now ctx events) = (events.filter (Event.isShown ctx)).length +
      lineEnds ((events.filter (Event.isShown ctx)).flatMap (Event.bareTexts ctx)).flatten := by
  have hend : lineEnds "\n" = 1 := by decide +kernel
  unfold log
  induction events.filter (Event.isShown ctx) with
  | nil => rfl
  | cons e shown ih =>
      rw [List.flatMap_cons, List.flatMap_cons, List.flatten_append, List.length_cons,
        Text.lineEnds_append, Text.lineEnds_append, Text.lineEnds_append, ih, hend,
        Event.lineEnds_line htext]
      omega

/-- A text log has as many lines as events if and only if none of them is broken. -/
theorem lineEnds_log_eq_length_iff (htext : ctx.logJson = false) (now : Timestamp)
    (hlabelled : ∀ e ∈ events.filter (Event.isShown ctx), e.IsLabelled) :
    lineEnds (log now ctx events) = (events.filter (Event.isShown ctx)).length ↔
      ∀ e ∈ events.filter (Event.isShown ctx), e.IsUnbroken ctx := by
  rw [lineEnds_log htext, Nat.add_eq_left, Text.lineEnds_flatten_eq_zero_iff]
  constructor
  · intro hall e he
    rw [← Event.lineEnds_bareTexts_eq_zero_iff (hlabelled e he), Text.lineEnds_flatten_eq_zero_iff]
    exact fun t ht => hall t (List.mem_flatMap.2 ⟨e, he, ht⟩)
  · intro hall t ht
    obtain ⟨e, he, ht⟩ := List.mem_flatMap.1 ht
    have hzero := (Event.lineEnds_bareTexts_eq_zero_iff (hlabelled e he)).2 (hall e he)
    exact Text.lineEnds_flatten_eq_zero_iff.1 hzero t ht

end

/-! ## Forged lines -/

namespace Event

variable {e e' : Event} {ctx : Context} {name : Text}

/-- The event with one more field, which is a text. -/
def withText (e : Event) (name s : Text) : Event :=
  { e with fields := e.fields ++ [(name, .text s)] }

theorem shownTime_withText (hname : name ≠ "ts") (now : Timestamp) (e : Event) (s : Text) :
    (e.withText name s).shownTime now = e.shownTime now := by
  have hother : ((Text.ofString "ts") == name) = false := by simpa using Ne.symm hname
  have hvalue : Json.valueOf? "ts" (e.fields ++ [(name, .text s)]) =
      Json.valueOf? "ts" e.fields := by
    rw [Json.valueOf?, Json.valueOf?, List.lookup_append]
    simp [List.lookup, hother]
  rw [shownTime, withText, hvalue, shownTime]

/-- What is added to the last field of an event is added to its line. -/
theorem textLine_withText (hname : name ≠ "ts")
    (hlast : ∀ field ∈ e.fields, Text.before field.1 name = true) (now : Timestamp)
    (ctx : Context) (s t : Text) :
    (e.withText name (s ++ t)).textLine now ctx = (e.withText name s).textLine now ctx ++ t := by
  have hsort (s : Text) : Text.sortOn (fun field => field.1) (e.withText name s).fields =
      Text.sortOn (fun field => field.1) e.fields ++ [(name, .text s)] :=
    Text.sortOn_append_last hlast
  have hpair : pair name (plain (.text (s ++ t))) = pair name (plain (.text s)) ++ t :=
    (List.append_assoc (name ++ ("=" : Text)) s t).symm
  simp only [textLine, shownTime_withText hname, hsort, List.map_append, List.map_cons,
    List.map_nil, hpair, ← List.append_assoc, Text.intercalate_append_last]
  rfl

end Event

/-- A text at the end of a line adds another event to the log, if it ends with the line of that
event. -/
theorem log_forged {ctx : Context} {e e' : Event} {name : Text} (htext : ctx.logJson = false)
    (hshown : e.isShown ctx = true) (hshown' : e'.isShown ctx = true) (hname : name ≠ "ts")
    (hlast : ∀ field ∈ e.fields, Text.before field.1 name = true) (now : Timestamp) (s : Text) :
    log now ctx [e.withText name (s ++ ("\n" ++ e'.line now ctx))] =
      log now ctx [e.withText name s, e'] := by
  have hline (e : Event) : e.line now ctx = e.textLine now ctx :=
    if_neg (by rw [htext]; decide)
  have hfirst (s : Text) : (e.withText name s).isShown ctx = true := hshown
  simp only [log, List.filter_cons, List.filter_nil, hfirst, hshown', if_true, List.flatMap_cons,
    List.flatMap_nil, hline, Event.textLine_withText hname hlast, List.append_assoc]

end Bindery
