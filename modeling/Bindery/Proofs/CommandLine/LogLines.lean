import Bindery.Proofs.CommandLine.Narration

/-!
# The lines of the standard error

A run whose log is JSON writes lines to the standard error, and each of them is read as one
object: a line for each event that is shown, and a last one for the failure if there is one.
-/

namespace Bindery

open Text (joined)

namespace CommandLine

variable {s : Surroundings} {r : Request} {argv : List Text}

/-! ## Runs -/

/-- The standard error has a line for each event that is shown, which is read as the event
with halves joined, and then a line for the failure if the run fails.  The status of that
line is `fail`, and its code is the exit code. -/
def TellsLines (s : Surroundings) (r : Request) (o : Outcome) : Prop :=
  ∃ events failures : List Text,
    o.stderr = Text.ofLines (events ++ failures) ∧
    List.Forall₂ (fun e line => ∃ read, IsJsonLine line (.object read) ∧
      read.Perm ((Event.members s.now (context s r) e).map fun m => (joined m.1, m.2.reread)))
      (shown s r) events ∧
    ((o.exit = exitOk ∧ failures = []) ∨
      (o.exit ≠ exitOk ∧ ∃ line v, failures = [line] ∧ IsJsonLine line v ∧
        v.member? "status" = some (.text "fail") ∧
        (v.member? "error").bind (Json.member? "code") = some (.int o.exit)))

theorem run_tellsLines (hparse : Request.parse argv = .ok r)
    (hjson : (context s r).logJson = true) : TellsLines s r (run s argv) := by
  obtain ⟨hstderr, -, -, hfailure⟩ := run_narrates (s := s) hparse
  have hevents : List.Forall₂ (fun e line => ∃ read, IsJsonLine line (.object read) ∧
      read.Perm ((Event.members s.now (context s r) e).map fun m => (joined m.1, m.2.reread)))
      (shown s r) ((shown s r).map (Event.line s.now (context s r))) := by
    refine List.forall₂_map_right_iff.2 (List.forall₂_same.2 fun e he => ?_)
    have hlogs := noted_logs s r e (List.mem_of_mem_filter he)
    exact hlogs.isReadable.isJsonLine_line (fun _ _ => trivial) trivial trivial hjson
  have hlog : log s.now (context s r) (noted s r) =
      Text.ofLines ((shown s r).map (Event.line s.now (context s r))) := log_eq_ofLines _ _ _
  rcases hfailure with ⟨hexit, hnone⟩ | ⟨hexit, f, hsome, hcode⟩
  · refine ⟨_, [], ?_, hevents, .inl ⟨hexit, rfl⟩⟩
    rw [hstderr, hnone, hlog, List.append_nil]
    exact List.append_nil _
  · refine ⟨_, [Text.ofString (f.toJson.render .line)], ?_, hevents,
      .inr ⟨hexit, _, _, rfl, isJsonLine_render (isReadable_failure f), rfl, hcode ▸ rfl⟩⟩
    have hreport : report (context s r) f =
        Text.ofLines [Text.ofString (f.toJson.render .line)] := by
      rw [report, if_pos hjson, Text.ofLines_singleton]
    rw [hstderr, hsome, hlog, Option.map_some, Option.getD_some, hreport, Text.ofLines_append]

/-- A log of JSON is lines, and nothing is lost in them.

Calls whose fields have names of their own, settled texts, no binary numbers and no integer that
is too long are all logged.  For each event that is shown the log gets one line of visible
characters, without a line end in it, that is read back as the object of the event: the time,
the level, the run, the component, the action and the fields, each with its value, where a path
is its text.  A text of characters is settled.  The log of events is what they add to it, and a
command that ended is reported unless its event cannot be logged.

The standard error of a run whose log is JSON is such lines too.  If the run fails, the last one
is the report of the failure, with the status `fail` and the exit code. -/
theorem log_lines :
    (∀ (ctx : Context) (calls : List (Timestamp × LogCall)), ctx.logJson = true →
        ctx.runId.IsSettled → (∀ c ∈ calls, c.2.IsPlain ∧ c.2.event.isWritable = true) →
        (∀ c ∈ calls,
          Event.make? c.2.level c.2.component c.2.action c.2.logged = some c.2.event) ∧
        ∃ pieces lines,
          List.Forall₂ (fun c piece => c.2.event.written? c.1 ctx = some piece) calls pieces ∧
          pieces.flatten = Text.ofLines lines ∧
          List.Forall₂ (fun c line => c.2.IsLine c.1 ctx line)
            (calls.filter fun c => c.2.event.isShown ctx) lines) ∧
    (∀ (now : Timestamp) (ctx : Context) (events : List Event) (pieces : List Text),
        List.Forall₂ (fun e piece => e.written? now ctx = some piece) events pieces →
        log now ctx events = pieces.flatten) ∧
    (∀ (now : Timestamp) (ctx : Context) (argv : List Text) (cwd : Path) (capture : Bool)
        (r : Result) (m : Machine), (Number.int r.code).isWritable = true →
        (m.report ctx argv cwd capture r = (.error .unwritable, m) ↔
          (Machine.runEvent argv cwd r).written? now ctx = none)) ∧
    (∀ (line : Text) (v : Json), IsJsonLine line v → CodePoint.char '\n' ∉ line) ∧
    (∀ cs : List Char, (Text.ofChars cs).IsSettled) ∧
    (∀ (s : Surroundings) (r : Request) (argv : List Text), Request.parse argv = .ok r →
        (context s r).logJson = true → TellsLines s r (run s argv)) := by
  refine ⟨?_, ?_, ?_, ?_, Text.isSettled_ofChars, ?_⟩
  · intro ctx calls hjson hrun hcalls
    exact ⟨fun c hc => (hcalls c hc).1.make?, LogCall.exists_lines hjson hrun hcalls⟩
  · intro now ctx events pieces h
    exact log_eq_of_written h
  · intro now ctx argv cwd capture r m hcode
    exact Machine.report_eq_error_iff hcode now ctx capture m
  · intro line v h
    exact h.not_mem
  · intro s r argv hparse hjson
    exact run_tellsLines hparse hjson

/-- A call with a path, an object and characters of all kinds. -/
def sampleCall : LogCall where
  level := "info"
  component := "book"
  action := "build"
  fields :=
    [("title", .json (.text "é\n\"💥\"\\")), ("dir", .path (.parse "docs/book")),
      ("sizes", .json (.object [("b", .list [.int (-12), .null]), ("a", .bool true)]))]

theorem isPlain_sampleCall : sampleCall.IsPlain where
  names := by decide
  distinct := by decide
  texts := ⟨rfl, rfl, rfl⟩
  fields := by
    intro f hf
    simp only [sampleCall, List.mem_cons, List.not_mem_nil, or_false] at hf
    rcases hf with rfl | rfl | rfl
    · exact ⟨rfl, .text rfl⟩
    · exact ⟨rfl, .text rfl⟩
    · have hnames : (["b", "a"].map joined).Nodup := by decide
      have hitems : (Json.list [.int (-12), .null]).IsReadable Text.IsSettled :=
        .list (by simpa using ⟨.int _, .null⟩)
      refine ⟨rfl, .object hnames ?_ ?_⟩
      · intro m hm
        simp only [List.mem_cons, List.not_mem_nil, or_false] at hm
        rcases hm with rfl | rfl <;> rfl
      · simpa using ⟨hitems, .bool _⟩

/-- A call that is logged as one line, one that is not shown, a command that is reported, and a
run that fails with its first command. -/
theorem log_lines_of_samples :
    let s := sampleSurroundings "/usr/local" fun _ => 1
    let ctx := context s plainRun
    let quietCall : LogCall := ⟨"debug", "shell", "cd", []⟩
    (∃ line, log s.now ctx [sampleCall.event, quietCall.event] = line ++ "\n" ∧
      CodePoint.char '\n' ∉ line ∧ sampleCall.IsLine s.now ctx line) ∧
    (Machine.mk [] [] []).report ctx ["true"] (.parse "/") false ⟨0, [], [], 5⟩ ≠
      (.error .unwritable, Machine.mk [] [] []) ∧
    (run s ["run"]).exit = exitCommand ∧ TellsLines s plainRun (run s ["run"]) := by
  intro s ctx quietCall
  have hquiet : quietCall.IsPlain :=
    ⟨by decide, by decide, ⟨rfl, rfl, rfl⟩, by intro f hf; cases hf⟩
  have hcalls : ∀ c ∈ [(s.now, sampleCall), (s.now, quietCall)],
      c.2.IsPlain ∧ c.2.event.isWritable = true := by
    intro c hc
    simp only [List.mem_cons, List.not_mem_nil, or_false] at hc
    rcases hc with rfl | rfl
    · exact ⟨isPlain_sampleCall, by decide +kernel⟩
    · exact ⟨hquiet, rfl⟩
  have hjson : ctx.logJson = true := by decide +kernel
  have hrun : ctx.runId.IsSettled := by decide +kernel
  refine ⟨?_, ?_, by decide +kernel, log_lines.2.2.2.2.2 s plainRun _ rfl hjson⟩
  · obtain ⟨-, pieces, lines, hpieces, hlines, hread⟩ := log_lines.1 ctx _ hjson hrun hcalls
    have hshown : sampleCall.event.isShown ctx = true := by decide +kernel
    have hnot : quietCall.event.isShown ctx = false := by decide +kernel
    rw [List.filter_cons, hshown, if_pos rfl, List.filter_cons, hnot, if_neg Bool.false_ne_true,
      List.filter_nil] at hread
    have hlog : log s.now ctx [sampleCall.event, quietCall.event] = pieces.flatten := by
      refine log_lines.2.1 s.now ctx _ pieces ?_
      cases hpieces with
      | cons hfirst hmore =>
          cases hmore with
          | cons hsecond hnil =>
              cases hnil
              exact .cons hfirst (.cons hsecond .nil)
    cases hread with
    | @cons _ line _ _ hline hnil =>
        cases hnil
        obtain ⟨read, hjsonLine, -⟩ := id hline
        exact ⟨line, by rw [hlog, hlines, Text.ofLines_singleton],
          log_lines.2.2.2.1 line _ hjsonLine, hline⟩
  · intro herror
    have hnone := (log_lines.2.2.1 s.now ctx ["true"] (.parse "/") false ⟨0, [], [], 5⟩ _
      (by decide +kernel)).1 herror
    have hwritable := (Event.written?_eq_none_iff.1 hnone).2
    exact absurd hwritable (by decide +kernel)

/-- A clock by which a command takes a number of milliseconds of more than 4300 digits. -/
def slowClock : Surroundings :=
  { sampleSurroundings "/usr/local" fun _ => 0 with
    devices := ([.int 0, .int (Nat.pow 10 4299)] : List Number) }

/-- A call with an integer of 4301 digits adds no line to the log, and a run stops with an
internal error at a command that takes so long: the event of the command is shown and is not in
the log. -/
theorem longInteger_not_logged :
    let ctx := context slowClock plainRun
    let call : LogCall :=
      ⟨"info", "process", "run-command", [("duration_ms", .json (.int (Nat.pow 10 4300)))]⟩
    ctx.logJson = true ∧ ctx.runId.IsSettled ∧ call.IsPlain ∧ call.event.isShown ctx = true ∧
      (∀ (now : Timestamp) (line : Text),
        call.event.written? now ctx ≠ some (line ++ "\n")) ∧
      (run slowClock ["run"]).exit = exitInternal ∧
      (run slowClock ["run"]).commands.length = 1 ∧
      (noted slowClock plainRun).map Event.action = ["start"] := by
  intro ctx call
  have hshown : call.event.isShown ctx = true := by decide +kernel
  have hwritable : call.event.isWritable = false := by decide +kernel
  have hplain : call.IsPlain := by
    refine ⟨by decide, by decide, ⟨rfl, rfl, rfl⟩, fun f hf => ?_⟩
    cases List.mem_singleton.1 hf
    exact ⟨rfl, .int _⟩
  refine ⟨by decide +kernel, by decide +kernel, hplain, hshown, ?_, by decide +kernel,
    by decide +kernel, by decide +kernel⟩
  intro now line
  rw [Event.written?_eq_none_iff.2 ⟨hshown, hwritable⟩]
  exact (Option.some_ne_none _).symm

end CommandLine
end Bindery
