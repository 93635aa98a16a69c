import Bindery.Proofs.CommandLine.Narration
import Bindery.Proofs.Log.LineEnds

/-!
# The lines of a text log

In a log of text an event is one line exactly if the run and the fields of the event have no
line end in them: values are shown as they are, and a text may hold line ends, or even the lines
of events that never happened.  `textLog_lineEnds` says how many line ends there are in what is
logged for an event, in a log of events, and in the log of a run.
-/

namespace Bindery

open Text (lineEnds)

/-- The labels of the events of a shell are names of its own. -/
theorem Shell.Logs.isLabelled {e : Event} (h : Shell.Logs e) : e.IsLabelled := by
  cases h with
  | entered dir => exact Event.isLabelled_of_labels ["debug", "shell", "cd"] rfl (by decide)
  | dry argv cwd => exact Event.isLabelled_of_labels ["info", "shell", "dry-run"] rfl (by decide)
  | ran argv cwd r =>
      unfold Machine.runEvent
      split
      · exact Event.isLabelled_of_labels ["info", "process", "run-command"] rfl (by decide)
      · exact Event.isLabelled_of_labels ["error", "process", "run-command"] rfl (by decide)
  | output argv r =>
      exact Event.isLabelled_of_labels ["debug", "process", "output"] rfl (by decide)
  | skipped =>
      exact Event.isLabelled_of_labels ["warning", "publish", "skip-upload"] rfl (by decide)
  | done record =>
      refine Event.isLabelled_of_labels ["info", "book", record.stage.name] rfl ?_
      cases record.stage <;> decide

namespace CommandLine

theorem Logs.isLabelled {e : Event} (h : Logs e) : e.IsLabelled := by
  cases h with
  | started ctx path task =>
      exact Event.isLabelled_of_labels ["info", "cli", "start"] rfl (by decide)
  | shell h => exact h.isLabelled

/-- A log of text has one line for each event exactly as far as no text in them has a line end.

What is logged for an event that is shown is a line, which has the line ends of the texts that
it shows as they are: so it has none, and is one line with its end, if and only if the run, the
names of the fields and the texts among their values have none.  The log of events has a line end
for each event that is shown and for each one in its texts.

A text at the end of an event adds another event to the log: nothing in the log tells whether
that event happened.

What holds of the log of any events holds of the log of a run. -/
theorem textLog_lineEnds (ctx : Context) (now : Timestamp) (htext : ctx.logJson = false) :
    (∀ e : Event, e.isShown ctx = true → e.isWritable = true →
        ∃ line : Text, e.written? now ctx = some (line ++ "\n") ∧
          lineEnds line = lineEnds (e.bareTexts ctx).flatten ∧
          (e.IsLabelled → (CodePoint.char '\n' ∉ line ↔ e.IsUnbroken ctx))) ∧
    (∀ events : List Event,
        lineEnds (log now ctx events) = (events.filter (Event.isShown ctx)).length +
          lineEnds ((events.filter (Event.isShown ctx)).flatMap (Event.bareTexts ctx)).flatten) ∧
    (∀ (front back : List Event) (e e' : Event) (name s : Text),
        e.isShown ctx = true → e'.isShown ctx = true → name ≠ "ts" →
        (∀ field ∈ e.fields, Text.before field.1 name = true) →
        log now ctx (front ++ [e.withText name (s ++ ("\n" ++ e'.line now ctx))] ++ back) =
          log now ctx (front ++ [e.withText name s, e'] ++ back)) ∧
    ∀ (s : Surroundings) (r : Request) (argv : List Text), Request.parse argv = .ok r →
      context s r = ctx →
      Narrates s r (run s argv) ∧
      (lineEnds (log s.now ctx (noted s r)) = (shown s r).length ↔
        ∀ e ∈ shown s r, e.IsUnbroken ctx) := by
  refine ⟨?_, fun events => lineEnds_log htext now events, ?_, ?_⟩
  · intro e hshown hwritable
    refine ⟨e.line now ctx, Event.written?_of_isShown hshown hwritable,
      Event.lineEnds_line htext now e, fun hlabelled => ?_⟩
    rw [← Text.lineEnds_eq_zero_iff, Event.lineEnds_line htext,
      Event.lineEnds_bareTexts_eq_zero_iff hlabelled]
  · intro front back e e' name s hshown hshown' hname hlast
    rw [log_append, log_append, log_append, log_append,
      log_forged htext hshown hshown' hname hlast]
  · rintro s r argv hparse rfl
    refine ⟨run_narrates hparse, lineEnds_log_eq_length_iff htext s.now fun e he => ?_⟩
    exact (noted_logs s r e (List.mem_of_mem_filter he)).isLabelled

/-- A log of text in which everything is shown. -/
def wordyRun : Request := { plainRun with format := some "text", verbose := true }

/-- An event that a child could forge. -/
def forgedEvent : Event := Machine.runEvent ["gsutil", "cp"] (.parse "/srv/book") ⟨0, [], [], 7⟩

/-- A command whose output ends with the line of another command is logged as both of them, and
the log of a run in which the package manager prints two lines has more lines than events. -/
theorem textLog_lineEnds_of_samples :
    let s := sampleSurroundings "/usr/local\nlevel=error" fun _ => 0
    let ctx := context s wordyRun
    let e : Event := ⟨"debug", "process", "output", [("command", .text "npm")]⟩
    Request.parse ["--format", "text", "--verbose", "run"] = .ok wordyRun ∧
      ctx.logJson = false ∧
      (∃ line : Text, (e.withText "output" "a\nb").written? s.now ctx = some (line ++ "\n") ∧
        CodePoint.char '\n' ∈ line) ∧
      log s.now ctx [e.withText "output" ("1.0" ++ ("\n" ++ forgedEvent.line s.now ctx))] =
        log s.now ctx [e.withText "output" "1.0", forgedEvent] ∧
      (shown s wordyRun).length < lineEnds (log s.now ctx (noted s wordyRun)) ∧
      ¬∀ e ∈ shown s wordyRun, e.IsUnbroken ctx := by
  intro s ctx e
  have hparse : Request.parse ["--format", "text", "--verbose", "run"] = .ok wordyRun := rfl
  have htext : ctx.logJson = false := by decide +kernel
  have hshown : e.isShown ctx = true := by decide +kernel
  have hmore : (shown s wordyRun).length < lineEnds (log s.now ctx (noted s wordyRun)) := by
    decide +kernel
  obtain ⟨hwritten, -, hforged, hruns⟩ := textLog_lineEnds ctx s.now htext
  refine ⟨hparse, htext, ?_, ?_, hmore, fun hall => ?_⟩
  · obtain ⟨line, hline, -, hbroken⟩ := hwritten (e.withText "output" "a\nb")
      (by decide +kernel) (by decide +kernel)
    have hlabelled : (e.withText "output" "a\nb").IsLabelled :=
      Event.isLabelled_of_labels ["debug", "process", "output"] rfl (by decide)
    refine ⟨line, hline, not_not.1 fun hnot => ?_⟩
    obtain ⟨-, hfields⟩ := (hbroken hlabelled).1 hnot
    have hbare := (hfields (Text.ofString "output", .text "a\nb") (by simp [Event.withText, e])).2
      _ rfl
    exact hbare (by decide)
  · have hlast : ∀ field ∈ e.fields, Text.before field.1 "output" = true := by decide +kernel
    exact hforged [] [] e forgedEvent "output" "1.0" hshown (by decide +kernel)
      (by decide +kernel) hlast
  · exact hmore.ne' ((hruns s wordyRun _ hparse rfl).2.2 hall)

end CommandLine
end Bindery
