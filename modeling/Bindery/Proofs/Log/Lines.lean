import Bindery.Log
import Bindery.Proofs.Json.Value
import Bindery.Proofs.Machine.Timed
import Mathlib.Data.List.Forall2
import Mathlib.Data.List.Nodup

/-!
# The lines of a log

An event that is logged as JSON adds one line to the log, which has visible characters only and
is read back as the object of the event.  The object has the time, the level, the run, the
component and the action, and every field of the event behind them
(`Event.isJsonLine_line`).

`Event.written?` is what an event adds, and the log is what its events add one after the other
(`log_eq_of_written`).  A command is reported unless its event cannot be logged
(`Machine.report_eq_error_iff`).
-/

namespace Bindery

open Text (joined)

/-! ## Members that are set -/

namespace Json

theorem put_of_not_mem {name : Text} {members : List (Text × Json)}
    (h : name ∉ members.map Prod.fst) (value : Json) :
    put name value members = members ++ [(name, value)] := by
  induction members with
  | nil => rfl
  | cons m members ih =>
      rw [List.map_cons, List.mem_cons, not_or] at h
      obtain ⟨other, old⟩ := m
      rw [put, if_neg (Ne.symm h.1), ih h.2, List.cons_append]

/-- New members stand behind the others. -/
theorem putAll_of_nodup {members new : List (Text × Json)}
    (h : ((members ++ new).map Prod.fst).Nodup) : putAll members new = members ++ new := by
  unfold putAll
  induction new generalizing members with
  | nil => rw [List.foldl_nil, List.append_nil]
  | cons m new ih =>
      have hnew : m.1 ∉ members.map Prod.fst := by
        rw [List.map_append, List.map_cons, List.nodup_append] at h
        exact fun hmem => h.2.2 _ hmem _ (.head _) rfl
      have hmove : members ++ m :: new = members ++ [m] ++ new := by simp
      rw [List.foldl_cons, put_of_not_mem hnew, ih (hmove ▸ h), hmove]

end Json

/-! ## Lines -/

/-- Lines one after the other, each with its end. -/
def Text.ofLines (lines : List Text) : Text := lines.flatMap fun line => line ++ "\n"

theorem Text.ofLines_singleton (line : Text) : ofLines [line] = line ++ "\n" := List.append_nil _

theorem Text.ofLines_append (lines more : List Text) :
    ofLines (lines ++ more) = ofLines lines ++ ofLines more := List.flatMap_append

/-- The text is one line of visible characters that is read as the value. -/
def IsJsonLine (line : Text) (v : Json) : Prop :=
  ∃ s : String, line = Text.ofString s ∧ (∀ c ∈ s.toList, Json.IsVisible c) ∧
    Json.parse? s = some v

theorem Json.IsLegible.isJsonLine {v : Json} (h : v.IsLegible) :
    IsJsonLine (Text.ofString (v.render .line)) v.reread := by
  refine ⟨_, rfl, ?_, Json.parse?_render h⟩
  rw [Json.render, String.toList_ofList]
  exact v.isVisible_renderAt 0

theorem isJsonLine_render {p : Text → Prop} {v : Json} (h : v.IsReadable p) :
    IsJsonLine (Text.ofString (v.render .line)) v.reread := h.isLegible.isJsonLine

/-- A line has no line end in it. -/
theorem IsJsonLine.not_mem {line : Text} {v : Json} (h : IsJsonLine line v) :
    CodePoint.char '\n' ∉ line := by
  obtain ⟨s, rfl, hvisible, -⟩ := h
  intro hmem
  obtain ⟨c, hc, hnewline⟩ := List.mem_map.1 hmem
  obtain rfl := CodePoint.char.inj hnewline
  exact absurd (hvisible _ hc) (by decide)

/-- An object is read back with all its members, in some order. -/
theorem Json.reread_object (members : List (Text × Json)) :
    ∃ read, (Json.object members).reread = .object read ∧
      read.Perm (members.map fun m => (joined m.1, m.2.reread)) :=
  ⟨_, Json.orderedWith_object joined members, (Text.sortOn_perm _ _).map _⟩

/-! ## Events -/

namespace Event

/-- The members that all events have. -/
def parts (now : Timestamp) (ctx : Context) (e : Event) : List (Text × Json) :=
  [("ts", .text (now.iso "T")), ("level", .text e.level), ("run_id", .text ctx.runId),
    ("component", .text e.component), ("action", .text e.action)]

/-- The members of an event. -/
def members (now : Timestamp) (ctx : Context) (e : Event) : List (Text × Json) :=
  e.parts now ctx ++ e.fields

/-- The names of the parts of an event. -/
def partNames : List Text := ["ts", "level", "run_id", "component", "action"]

/-- The texts of an event are of a kind, its fields can be read, and no two members of it have
one name, also when halves are joined. -/
structure IsReadable (p : Text → Prop) (e : Event) : Prop where
  texts : p e.level ∧ p e.component ∧ p e.action
  fields : ∀ f ∈ e.fields, p f.1 ∧ f.2.IsReadable p
  names : (partNames ++ e.fields.map fun f => joined f.1).Nodup

variable {p : Text → Prop} {e : Event} {now : Timestamp} {ctx : Context}

theorem map_joined_members (now : Timestamp) (ctx : Context) (e : Event) :
    ((e.members now ctx).map fun m => joined m.1) =
      partNames ++ e.fields.map fun f => joined f.1 := by
  have hparts : ((e.parts now ctx).map fun m => joined m.1) = partNames := rfl
  rw [members, List.map_append, hparts]

theorem IsReadable.toJson (h : e.IsReadable p) :
    e.toJson now ctx = .object (e.members now ctx) := by
  refine congrArg Json.object (Json.putAll_of_nodup (List.Nodup.of_map joined ?_))
  rw [List.map_map]
  exact (map_joined_members now ctx e).symm ▸ h.names

theorem IsReadable.isReadable_members (h : e.IsReadable p) (hparts : ∀ n ∈ partNames, p n)
    (hnow : p (now.iso "T")) (hrun : p ctx.runId) :
    (Json.object (e.members now ctx)).IsReadable p := by
  have hmember : ∀ m ∈ e.members now ctx, p m.1 ∧ m.2.IsReadable p := by
    intro m hm
    rcases List.mem_append.1 hm with hm | hm
    · obtain ⟨hlevel, hcomponent, haction⟩ := h.texts
      have hname : p m.1 := hparts _ (List.mem_map_of_mem (f := Prod.fst) hm)
      simp only [parts, List.mem_cons, List.not_mem_nil, or_false] at hm
      rcases hm with rfl | rfl | rfl | rfl | rfl
      · exact ⟨hname, .text hnow⟩
      · exact ⟨hname, .text hlevel⟩
      · exact ⟨hname, .text hrun⟩
      · exact ⟨hname, .text hcomponent⟩
      · exact ⟨hname, .text haction⟩
    · exact h.fields m hm
  exact .object ((map_joined_members now ctx e).symm ▸ h.names) (fun m hm => (hmember m hm).1)
    fun m hm => (hmember m hm).2

/-- The line of an event is read back as the event, with all its members. -/
theorem IsReadable.isJsonLine_line (h : e.IsReadable p) (hparts : ∀ n ∈ partNames, p n)
    (hnow : p (now.iso "T")) (hrun : p ctx.runId) (hjson : ctx.logJson = true) :
    ∃ read, IsJsonLine (e.line now ctx) (.object read) ∧
      read.Perm ((e.members now ctx).map fun m => (joined m.1, m.2.reread)) := by
  obtain ⟨read, hread, hperm⟩ := Json.reread_object (e.members now ctx)
  refine ⟨read, ?_, hperm⟩
  rw [line, if_pos hjson, h.toJson, ← hread]
  exact isJsonLine_render (h.isReadable_members hparts hnow hrun)

/-! ## What an event adds to the log -/

theorem written?_of_not_isShown (h : e.isShown ctx = false) : e.written? now ctx = some [] := by
  rw [written?, h]
  rfl

theorem written?_of_isShown (hshown : e.isShown ctx = true) (hwritable : e.isWritable = true) :
    e.written? now ctx = some (e.line now ctx ++ "\n") := by
  rw [written?, hshown, hwritable]
  rfl

/-- An event cannot be logged if it is shown and has an integer that is too long. -/
theorem written?_eq_none_iff :
    e.written? now ctx = none ↔ e.isShown ctx = true ∧ e.isWritable = false := by
  unfold written?
  cases e.isShown ctx <;> cases e.isWritable <;> simp

end Event

theorem log_append (now : Timestamp) (ctx : Context) (events more : List Event) :
    log now ctx (events ++ more) = log now ctx events ++ log now ctx more := by
  rw [log, List.filter_append, List.flatMap_append, log, log]

/-- The log of events that can be logged is what they add to it, one after the other. -/
theorem log_eq_of_written {now : Timestamp} {ctx : Context} {events : List Event}
    {pieces : List Text}
    (h : List.Forall₂ (fun e piece => e.written? now ctx = some piece) events pieces) :
    log now ctx events = pieces.flatten := by
  induction h with
  | nil => rfl
  | @cons e piece events pieces hpiece h ih =>
      rw [List.flatten_cons, ← ih]
      cases hshown : e.isShown ctx with
      | false =>
          rw [Event.written?_of_not_isShown hshown] at hpiece
          cases hpiece
          rw [log, List.filter_cons_of_neg (by rw [hshown]; decide)]
          rfl
      | true =>
          have hwritable : e.isWritable = true := by
            refine Bool.of_not_eq_false fun hwritable => ?_
            rw [Event.written?_eq_none_iff.2 ⟨hshown, hwritable⟩] at hpiece
            cases hpiece
          rw [Event.written?_of_isShown hshown hwritable] at hpiece
          cases hpiece
          rw [log, List.filter_cons_of_pos hshown]
          rfl

namespace Machine

variable {argv : List Text} {cwd : Path} {r : Result}

theorem isWritable_runEvent (argv : List Text) (cwd : Path) (r : Result) :
    (runEvent argv cwd r).isWritable =
      ((Number.int r.code).isWritable && (Number.int r.millis).isWritable) := by
  simp [runEvent, Event.isWritable, Value.ofJson, Value.isWritable, Json.int]

/-- A command is reported unless its event cannot be logged. -/
theorem report_eq_error_iff (hcode : (Number.int r.code).isWritable = true) (now : Timestamp)
    (ctx : Context) (capture : Bool) (m : Machine) :
    m.report ctx argv cwd capture r = (.error .unwritable, m) ↔
      (runEvent argv cwd r).written? now ctx = none := by
  rw [Event.written?_eq_none_iff, isWritable_runEvent, hcode, Bool.true_and]
  unfold report
  dsimp only
  cases (runEvent argv cwd r).isShown ctx <;> cases (Number.int r.millis).isWritable <;> simp

end Machine

/-! ## What is given to the log -/

/-- The value of a field as it is given to the log. -/
inductive LogValue where
  /-- A JSON value. -/
  | json (v : Json)
  /-- A path. -/
  | path (p : Path)

/-- The value as it is logged.  A path is its text. -/
def LogValue.toJson : LogValue → Json
  | json v => v
  | path p => .text p.text

/-- What is given to the log for an event. -/
structure LogCall where
  /-- How important the event is. -/
  level : Text
  /-- The part of the program. -/
  component : Text
  /-- What happens. -/
  action : Text
  /-- More about it. -/
  fields : List (Text × LogValue)

namespace LogCall

/-- The fields as they are logged. -/
def logged (c : LogCall) : List (Text × Json) := c.fields.map fun f => (f.1, f.2.toJson)

/-- The event of a call. -/
def event (c : LogCall) : Event := ⟨c.level, c.component, c.action, c.logged⟩

/-- The fields of a call have names of their own, and it has settled texts and no binary
numbers. -/
structure IsPlain (c : LogCall) : Prop where
  names : ∀ f ∈ c.fields, f.1 ≠ "ts" ∧ f.1 ≠ "run_id" ∧ f.1 ∉ Event.reserved
  distinct : (c.fields.map Prod.fst).Nodup
  texts : c.level.IsSettled ∧ c.component.IsSettled ∧ c.action.IsSettled
  fields : ∀ f ∈ c.fields, f.1.IsSettled ∧ f.2.toJson.IsReadable Text.IsSettled

namespace IsPlain

variable {c : LogCall}

/-- The log takes the fields. -/
theorem make? (h : c.IsPlain) :
    Event.make? c.level c.component c.action c.logged = some c.event := by
  have hfree : (c.logged.any fun f => Event.reserved.contains f.1) = false := by
    simp only [logged, List.any_eq_false, List.mem_map, List.contains_iff_mem]
    rintro _ ⟨f, hf, rfl⟩ hmem
    exact (h.names f hf).2.2 hmem
  rw [Event.make?, hfree]
  rfl

theorem isReadable (h : c.IsPlain) : c.event.IsReadable Text.IsSettled where
  texts := h.texts
  fields := by
    intro f hf
    obtain ⟨g, hg, rfl⟩ := List.mem_map.1 hf
    exact h.fields g hg
  names := by
    have hjoined : (c.event.fields.map fun f => joined f.1) = c.fields.map Prod.fst := by
      rw [event, logged, List.map_map]
      exact List.map_congr_left fun f hf => (h.fields f hf).1
    rw [hjoined, List.nodup_append]
    refine ⟨by decide, h.distinct, ?_⟩
    rintro name hname _ hmem rfl
    obtain ⟨f, hf, rfl⟩ := List.mem_map.1 hmem
    have hreserved : ∀ n ∈ Event.partNames, n = "ts" ∨ n = "run_id" ∨ n ∈ Event.reserved := by
      decide
    have hfree := h.names f hf
    rcases hreserved _ hname with hname | hname | hname
    · exact hfree.1 hname
    · exact hfree.2.1 hname
    · exact hfree.2.2 hname

end IsPlain

/-- The line is read as the object of a call, with all its members in some order. -/
def IsLine (now : Timestamp) (ctx : Context) (c : LogCall) (line : Text) : Prop :=
  ∃ read, IsJsonLine line (.object read) ∧
    read.Perm ((c.event.members now ctx).map fun m => (m.1, m.2.ordered))

theorem IsPlain.isLine_line {c : LogCall} (h : c.IsPlain) {ctx : Context}
    (hjson : ctx.logJson = true) (hrun : ctx.runId.IsSettled) (now : Timestamp) :
    c.IsLine now ctx (c.event.line now ctx) := by
  have hparts : ∀ n ∈ Event.partNames, n.IsSettled := by
    intro n hn
    simp only [Event.partNames, List.mem_cons, List.not_mem_nil, or_false] at hn
    rcases hn with rfl | rfl | rfl | rfl | rfl <;> exact Text.isSettled_ofString _
  have hnow : (Text.ofString (now.iso "T")).IsSettled := Text.isSettled_ofString _
  obtain ⟨read, hline, hperm⟩ := h.isReadable.isJsonLine_line hparts hnow hrun hjson
  refine ⟨read, hline, ?_⟩
  have hsettled : ((c.event.members now ctx).map fun m => (joined m.1, m.2.reread)) =
      (c.event.members now ctx).map fun m => (m.1, m.2.ordered) := by
    have hreadable := h.isReadable.isReadable_members hparts hnow hrun
    refine List.map_congr_left fun m hm => ?_
    cases hreadable with
    | object _ hnames hvalues => rw [(hvalues m hm).reread_eq, hnames m hm]
  exact hsettled ▸ hperm

/-- Calls that can be logged add a line for each event that is shown, and nothing else. -/
theorem exists_lines {ctx : Context} (hjson : ctx.logJson = true) (hrun : ctx.runId.IsSettled)
    {calls : List (Timestamp × LogCall)}
    (h : ∀ c ∈ calls, c.2.IsPlain ∧ c.2.event.isWritable = true) :
    ∃ pieces lines,
      List.Forall₂ (fun c piece => c.2.event.written? c.1 ctx = some piece) calls pieces ∧
      pieces.flatten = Text.ofLines lines ∧
      List.Forall₂ (fun c line => c.2.IsLine c.1 ctx line)
        (calls.filter fun c => c.2.event.isShown ctx) lines := by
  induction calls with
  | nil => exact ⟨[], [], .nil, rfl, .nil⟩
  | cons c calls ih =>
      obtain ⟨pieces, lines, hpieces, hlines, hread⟩ := ih fun d hd => h d (.tail _ hd)
      obtain ⟨hplain, hwritable⟩ := h c (.head _)
      cases hshown : c.2.event.isShown ctx with
      | false =>
          refine ⟨[] :: pieces, lines, .cons (Event.written?_of_not_isShown hshown) hpieces, hlines,
            ?_⟩
          rwa [List.filter_cons, hshown, if_neg Bool.false_ne_true]
      | true =>
          refine ⟨_ :: pieces, c.2.event.line c.1 ctx :: lines,
            .cons (Event.written?_of_isShown hshown hwritable) hpieces, ?_, ?_⟩
          · rw [List.flatten_cons, hlines]
            rfl
          · rw [List.filter_cons, hshown, if_pos rfl]
            exact .cons (hplain.isLine_line hjson hrun c.1) hread

end LogCall
end Bindery
