import Bindery.Proofs.Log.Labels
import Bindery.Proofs.Shell.Scope
import Mathlib.Data.List.Forall2

/-!
# Three records of a program

A program leaves three records of its commands: the commands that were handed to the system, the
history, and the log.  `play_ledger` says how they agree.

The history has an entry for each command that was handed to the system and has a result, in
their order.  A command that the system refuses or cannot wait for has no result, and neither has
one whose time or limit is out of range (`Handed.IsKept`).  It has no entry then, and what it
raises is no failed command.  A command with an entry fails for the shell exactly if the entry has
an exit code other than 0.

The log has one line for each entry, in a quiet run only for those with another exit code than 0,
and no other line tells of a command that ended.
-/

namespace Bindery

open Text (joined)

/-! ## Commands of a program -/

mutual

/-- The words of the commands in a step. -/
def Step.words : Step → List (List Value)
  | .run words => [words]
  | .capture words => [words]
  | .cd _ body => wordsAll body
  | .attempt body => wordsAll body

/-- The words of the commands in steps. -/
def Step.wordsAll : List Step → List (List Value)
  | [] => []
  | step :: steps => step.words ++ wordsAll steps

end

/-- A command whose words are texts, with a program among them. -/
def IsNamed (words : List Value) : Prop := ∃ argv : List Text, argv ≠ [] ∧ words = argv.map .text

/-! ## Rows of commands -/

namespace Row

/-- The row is of a command. -/
def isCommand (row : Row) : Bool :=
  match row.happening with
  | .ran _ | .captured _ | .runFailed _ | .captureFailed _ => true
  | _ => false

/-- The row is of a command for its output. -/
def isCapture (row : Row) : Bool :=
  match row.happening with
  | .captured _ | .captureFailed _ => true
  | _ => false

/-- The fault that a command raised, if it did. -/
def raised? (row : Row) : Option Shell.Fault :=
  match row.happening with
  | .runFailed fault | .captureFailed fault => some fault
  | _ => none

end Row

/-- A row tells of the command of an entry: it raised nothing if its exit code is 0, and
otherwise the fault of a failed command. -/
structure Row.Tells (row : Row) (e : Executed) : Prop where
  cwd : row.cwd = e.cwd
  ended : e.code = 0 → row.raised? = none
  failed : e.code ≠ 0 → ∃ detail,
    row.raised? = some (.commandFailed ⟨e.argv, e.cwd, e.code, .exited detail⟩)

namespace Executed

/-- The words of the command of an entry. -/
def words (e : Executed) : Text := List.intercalate " " e.argv

/-- The line tells of an entry as of a command that ended. -/
def IsLine (now : Timestamp) (ctx : Context) (e : Executed) (line : Text) : Prop :=
  IsLogLine now ctx (if e.code = 0 then "info" else "error" : String) "process" "run-command"
    [("command", .text (joined e.words)), ("cwd", .text (joined e.cwd.text)),
      ("code", .int e.code), ("duration_ms", .int e.millis)]
    (List.flatten [" code=", toString e.code, " command=", e.words, " cwd=", e.cwd.text,
      " duration_ms=", toString e.millis]) line

/-- The line tells of an entry as of a command of a dry run. -/
def IsDryLine (now : Timestamp) (ctx : Context) (e : Executed) (line : Text) : Prop :=
  IsLogLine now ctx "info" "shell" "dry-run"
    [("command", .text (joined e.words)), ("cwd", .text (joined e.cwd.text))]
    (List.flatten [" command=", e.words, " cwd=", e.cwd.text]) line

/-- The event for an entry of the history. -/
def event (e : Executed) : Event :=
  ⟨if e.code = 0 then "info" else "error", "process", "run-command",
    [("command", .text e.words), ("cwd", .text e.cwd.text), ("code", .int e.code),
      ("duration_ms", .int e.millis)]⟩

end Executed

/-- The event is of a command that ended. -/
def Event.isRun (e : Event) : Bool := e.component == "process" && e.action == "run-command"

/-- The event is of a command of a dry run. -/
def Event.isDryRun (e : Event) : Bool := e.component == "shell" && e.action == "dry-run"

/-! ## What steps do -/

namespace Step.Does

variable {sh : Shell} {dir : Path} {steps : List Step} {moves : List Move} {rows : List Row}
  {outcome : Except Shell.Fault Unit}

theorem wordsAll_step (d : Deed) : wordsAll [d.step] = [d.words] := by
  unfold Deed.step
  split <;> rfl

/-- Only commands of the program are run. -/
theorem words_mem (h : Does sh dir steps moves rows outcome) {d : Deed} (hd : .did d ∈ moves) :
    d.words ∈ wordsAll steps := by
  induction h with
  | nil dir => cases hd
  | command e =>
      cases List.mem_singleton.1 hd
      rw [wordsAll_step]
      exact .head _
  | cd htarget hbody ih =>
      rcases List.mem_cons.1 hd with hd | hd
      · cases hd
      · exact List.mem_append_left _ (ih hd)
  | unresolved body htarget => cases hd
  | attempt hbody ih => exact List.mem_append_left _ (ih hd)
  | cons hfirst hrest ihfirst ihrest =>
      rcases List.mem_append.1 hd with hd | hd
      · have hstep := ihfirst hd
        simp only [wordsAll, List.append_nil] at hstep
        exact List.mem_append_left _ hstep
      · exact List.mem_append_right _ (ihrest hd)
  | stop steps hfirst ih =>
      have hstep := ih hd
      simp only [wordsAll, List.append_nil] at hstep
      exact List.mem_append_left _ hstep

theorem isCommand_row (d : Deed) : d.row.isCommand = true := by
  unfold Deed.row Deed.happening Row.isCommand
  cases d.outcome <;> cases d.capture <;> rfl

/-- The rows of commands are those of the deeds, in their order. -/
theorem filter_rows (h : Does sh dir steps moves rows outcome) :
    rows.filter Row.isCommand = (moves.filterMap Move.deed?).map Deed.row := by
  induction h with
  | nil dir => rfl
  | command d => simp [isCommand_row, Move.deed?]
  | @cd _ _ _ _ _ _ outcome htarget hbody ih =>
      cases outcome <;>
        simp [Row.isCommand, Happening.leaving, List.filterMap_cons, Move.deed?, ih]
  | unresolved body htarget => rfl
  | attempt hbody ih => simp [Row.isCommand, ih]
  | cons hfirst hrest ihfirst ihrest =>
      rw [List.filter_append, List.filterMap_append, List.map_append, ihfirst, ihrest]
  | stop steps hfirst ih => exact ih

/-- What is logged besides is that directories are entered. -/
theorem eq_enterEvent (h : Does sh dir steps moves rows outcome) {e : Event}
    (he : .noted e ∈ moves) : ∃ target, e = Shell.enterEvent target := by
  induction h with
  | nil dir => cases he
  | command d => simp at he
  | @cd _ _ target _ _ _ _ htarget hbody ih =>
      rcases List.mem_cons.1 he with he | he
      · cases he
        exact ⟨target, rfl⟩
      · exact ih he
  | unresolved body htarget => cases he
  | attempt hbody ih => exact ih he
  | cons hfirst hrest ihfirst ihrest => exact (List.mem_append.1 he).elim ihfirst ihrest
  | stop steps hfirst ih => exact ih he

end Step.Does

/-! ## Commands that were handed to the system -/

/-- A command that was handed to the system, with its entry in the history if it has one. -/
structure Handed where
  /-- The command. -/
  command : Command
  /-- Its entry. -/
  entry? : Option Executed

/-- What was handed to the system for the row of a command under a limit. -/
structure Handed.Matches (limit : Option Value) (row : Row) (h : Handed) : Prop where
  cwd : h.command.cwd = row.cwd
  capture : h.command.capture = row.isCapture
  timeout : h.command.timeout = limit
  /-- An entry is of the same command, and the row tells of it. -/
  entry : ∀ e, h.entry? = some e →
    h.command.argv = e.argv.map .text ∧ h.command.cwd = e.cwd ∧ row.Tells e
  /-- Without an entry the row has raised that there is no result. -/
  missing : h.entry? = none → ∃ fault, row.raised? = some (.noResult fault)

/-- When a command that was handed to the system behind others has an entry. -/
structure Handed.IsKept (w : World) (readings : List Number) (before : List Command) (h : Handed) :
    Prop where
  /-- The system handles a command with an entry. -/
  handled : h.entry?.isSome = true → w.Handles before h.command
  /-- Where times can be measured and written, a command that the system handles has an entry,
  unless its child is stopped by a limit that cannot be written. -/
  lost : h.entry? = none → w.Handles before h.command → Machine.IsMeasurable readings →
    w.Starts before h.command ∧ w.Exceeds before h.command ∧
      ∃ limit, h.command.timeout = some limit ∧ limit.isWritable = false

/-! ## Events and lines -/

section

variable {now : Timestamp} {ctx : Context}

theorem isReadable_enterEvent (target : Path) :
    (Shell.enterEvent target).IsReadable fun _ => True := by
  refine Event.isReadable_of_names ["path"] rfl (by decide) ?_
  simpa [Shell.enterEvent] using .text trivial

theorem isReadable_outputEvent (argv : List Text) (r : Result) :
    (Machine.outputEvent argv r).IsReadable fun _ => True := by
  refine Event.isReadable_of_names ["command", "output"] rfl (by decide) ?_
  simpa [Machine.outputEvent] using ⟨.text trivial, .text trivial⟩

theorem isReadable_dryEvent (argv : List Text) (cwd : Path) :
    (Shell.dryEvent argv cwd).IsReadable fun _ => True := by
  refine Event.isReadable_of_names ["command", "cwd"] rfl (by decide) ?_
  simpa [Shell.dryEvent] using ⟨.text trivial, .text trivial⟩

theorem Executed.isReadable_event (e : Executed) : e.event.IsReadable fun _ => True := by
  refine Event.isReadable_of_names ["command", "cwd", "code", "duration_ms"] rfl (by decide) ?_
  simpa [Executed.event] using ⟨.text trivial, .text trivial, .int _, .int _⟩

theorem Executed.isLine_event (e : Executed) : e.IsLine now ctx (e.event.line now ctx) := by
  refine Event.isLogLine_line e.isReadable_event ⟨?_, rfl, rfl⟩ rfl ?_
  · unfold Executed.event
    split <;> rfl
  · rw [shownFields_eq [("code", .int e.code), ("command", .text e.words),
      ("cwd", .text e.cwd.text), ("duration_ms", .int e.millis)] rfl]
    simp only [List.map_cons, List.map_nil, Event.plain_int, Event.plain_text]
    rfl

theorem Executed.isDryLine_event (e : Executed) :
    e.IsDryLine now ctx ((Shell.dryEvent e.argv e.cwd).line now ctx) := by
  refine Event.isLogLine_line (isReadable_dryEvent e.argv e.cwd) ⟨rfl, rfl, rfl⟩ rfl ?_
  rw [shownFields_eq [("command", .text e.words), ("cwd", .text e.cwd.text)] rfl]
  simp only [List.map_cons, List.map_nil, Event.plain_text]
  rfl

/-- What is logged besides about a program tells of no command that ended. -/
theorem Executed.not_isLine (e : Executed) {event : Event}
    (h : (∃ target, event = Shell.enterEvent target) ∨
      ∃ argv r, event = Machine.outputEvent argv r) : ¬e.IsLine now ctx (event.line now ctx) := by
  have hother : ∀ code : Int,
      ¬(Text.ofString (if code = 0 then "info" else "error") = "debug") := by
    intro code
    split <;> decide
  have hblank (component : String) (hc : CodePoint.char ' ' ∉ Text.ofString component) :
      ∀ label ∈ [Text.ofString (if e.code = 0 then "info" else "error"), Text.ofString "process",
        Text.ofString "debug", Text.ofString component], CodePoint.char ' ' ∉ label := by
    simp only [List.forall_mem_cons, List.not_mem_nil, false_implies, implies_true, and_true]
    refine ⟨?_, by decide, by decide, hc⟩
    split <;> decide
  rcases h with ⟨target, rfl⟩ | ⟨argv, r, rfl⟩
  · exact Event.not_isLogLine ["command", "cwd", "code", "duration_ms"] rfl (by decide)
      (isReadable_enterEvent target) ⟨rfl, rfl, rfl⟩ (hblank "shell" (by decide))
      fun h => hother e.code h.1
  · exact Event.not_isLogLine ["command", "cwd", "code", "duration_ms"] rfl (by decide)
      (isReadable_outputEvent argv r) ⟨rfl, rfl, rfl⟩ (hblank "process" (by decide))
      fun h => hother e.code h.1

theorem Executed.not_isDryLine (e : Executed) (target : Path) :
    ¬e.IsDryLine now ctx ((Shell.enterEvent target).line now ctx) :=
  Event.not_isLogLine ["command", "cwd"] rfl (by decide) (isReadable_enterEvent target)
    ⟨rfl, rfl, rfl⟩ (by decide) (by decide)

end

/-! ## Records of deeds -/

namespace Shell

variable {sh : Shell} {m : Machine} {n : Number} {limit : Option Value}

/-- The command that a deed hands to the system under a limit. -/
def commandOf (d : Deed) (limit : Option Value) : Command := ⟨d.words, d.cwd, d.capture, limit⟩

/-- The entry for a deed with a result. -/
def entryOf (d : Deed) (r : Result) : Executed := ⟨d.argv, d.cwd, r.code, r.millis⟩

/-- What a deed hands to the system under a limit, with the entry for it. -/
def handedOf (limit : Option Value) (d : Deed) : Handed := ⟨commandOf d limit, d.entries.head?⟩

theorem entries_of_ok {d : Deed} {r : Result} (h : d.answer = .ok r) :
    d.entries = [entryOf d r] := by
  rw [Deed.entries, h, entryOf]

theorem entries_of_error {d : Deed} {fault : Machine.Fault} (h : d.answer = .error fault) :
    d.entries = [] := by
  rw [Deed.entries, h]

/-- A deed has one entry or none. -/
theorem toList_head?_entries (d : Deed) : d.entries.head?.toList = d.entries := by
  unfold Deed.entries
  cases d.answer <;> rfl

/-- The row of a deed tells of its entry. -/
theorem row_tells {d : Deed} {r : Result} (h : d.answer = .ok r) : d.row.Tells (entryOf d r) := by
  have houtcome : d.outcome =
      if r.code = 0 then .ok r else .error (.commandFailed (d.failure r)) := by
    rw [Deed.outcome, h]
  constructor
  · rfl
  · intro (hcode : r.code = 0)
    simp only [Deed.row, Deed.happening, Row.raised?, houtcome, hcode, if_true]
    cases d.capture <;> rfl
  · intro (hcode : r.code ≠ 0)
    refine ⟨Text.trim r.stderr, ?_⟩
    simp only [Deed.row, Deed.happening, Row.raised?, houtcome, hcode, if_false]
    cases d.capture <;> rfl

/-- The row of a deed without a result has raised that. -/
theorem raised?_row {d : Deed} {fault : Machine.Fault} (h : d.answer = .error fault) :
    d.row.raised? = some (.noResult fault) := by
  have houtcome : d.outcome = .error (.noResult fault) := by
    rw [Deed.outcome, h]
  simp only [Deed.row, Deed.happening, Row.raised?, houtcome]
  cases d.capture <;> rfl

theorem isCapture_row (d : Deed) : d.row.isCapture = d.capture := by
  unfold Deed.row Deed.happening Row.isCapture
  cases d.outcome <;> cases d.capture <;> rfl

theorem matches_handedOf {d : Deed} (hnamed : IsNamed d.words) :
    (handedOf limit d).Matches limit d.row where
  cwd := rfl
  capture := (isCapture_row d).symm
  timeout := rfl
  entry := by
    intro e he
    cases hanswer : d.answer with
    | error fault =>
        rw [handedOf, entries_of_error hanswer] at he
        cases he
    | ok r =>
        rw [handedOf, entries_of_ok hanswer] at he
        cases he
        obtain ⟨argv, -, hargv⟩ := hnamed
        have htexts : d.words = d.argv.map .text := by
          rw [Deed.argv, hargv, Value.texts?_map_text, Option.getD_some]
        exact ⟨htexts, rfl, row_tells hanswer⟩
  missing := by
    intro hnone
    cases hanswer : d.answer with
    | error fault => exact ⟨fault, raised?_row hanswer⟩
    | ok r =>
        rw [handedOf, entries_of_ok hanswer] at hnone
        cases hnone

theorem commandOf_eq {d : Deed} {argv : List Text} (hwords : d.words = argv.map .text)
    (hn : sh.seconds.number? = some n) :
    commandOf d (if n.isPositive then some sh.seconds else none) =
      Machine.command argv d.cwd d.capture sh.seconds := by
  rw [commandOf, Machine.command, Machine.limitOf_eq hn, hwords]

/-- The answer to a live deed of texts is what running its command comes to. -/
theorem Gives.exists_run {d : Deed} {readings : List Number} {before : List Command}
    {argv : List Text} (h : sh.Gives readings before d) (live : sh.context.dryRun = false)
    (hwords : d.words = argv.map .text) : ∃ m : Machine, m.commands = before ∧
      m.readings ⊆ readings ∧
      d.answer = (m.run sh.world sh.context argv d.cwd d.capture sh.seconds).1 := by
  obtain ⟨m, hcommands, hreadings, hanswer⟩ := h
  refine ⟨m, hcommands, hreadings, ?_⟩
  rw [hanswer, respond, live, if_neg (by decide), hwords, Machine.runWords,
    Value.texts?_map_text]

/-- A live deed has an entry if nothing keeps its command from having a result. -/
theorem isKept_handedOf {d : Deed} {readings : List Number} {before : List Command}
    (hgives : sh.Gives readings before d) (live : sh.context.dryRun = false)
    (hnamed : IsNamed d.words) (hn : sh.seconds.number? = some n) :
    (handedOf (if n.isPositive then some sh.seconds else none) d).IsKept sh.world readings
      before := by
  obtain ⟨argv, hargv, hwords⟩ := hnamed
  have hcommand := commandOf_eq hwords hn
  obtain ⟨m, rfl, hreadings, hanswer⟩ := hgives.exists_run live hwords
  constructor
  case handled =>
    intro hsome
    cases hd : d.answer with
    | error fault =>
        rw [handedOf, entries_of_error hd] at hsome
        cases hsome
    | ok r =>
        have hrun : ∃ m', m.runWith sh.world (some sh.context) argv d.cwd d.capture sh.seconds =
            (.ok r, m') := ⟨_, Prod.ext (hanswer.symm.trans hd) rfl⟩
        have hreturns := (Machine.runWith_ok_iff hargv hn).1 hrun
        rw [handedOf, hcommand]
        exact ⟨hreturns.taken, hreturns.waits⟩
  case lost =>
    intro hnone hhandles hclock
    rw [handedOf, hcommand] at hhandles ⊢
    by_contra hlimit
    have hanswered : Machine.IsAnswered sh.world argv d.cwd d.capture sh.seconds m :=
      { named := hargv
        taken := hhandles.1
        waits := hhandles.2
        limited := ⟨n, hn⟩
        measurable := fun started hs ended he =>
          hclock started (hreadings hs) ended (hreadings he)
        stopped := by
          intro hstarts hexceeds
          by_contra hlong
          exact hlimit ⟨hstarts, hexceeds, sh.seconds, Machine.timeout_of_exceeds hn hexceeds,
            Bool.not_eq_true _ ▸ hlong⟩ }
    obtain ⟨r, m', hrun⟩ := Machine.exists_run_ok sh.context hanswered
    rw [hrun] at hanswer
    rw [handedOf, entries_of_ok hanswer] at hnone
    cases hnone

theorem commands_of_live {d : Deed} (live : sh.context.dryRun = false)
    (hn : sh.seconds.number? = some n) :
    d.commands sh = [commandOf d (if n.isPositive then some sh.seconds else none)] := by
  simp only [Deed.commands, live, Bool.false_eq_true, if_false, Machine.startedFor,
    Machine.limit?, hn, commandOf]

/-- The events that a live deed logs are that of its entry and that of its output. -/
theorem filter_events_of_live (live : sh.context.dryRun = false) (d : Deed) :
    (d.events sh).filter Event.isRun = d.entries.map Executed.event := by
  simp only [Deed.events, live, Bool.false_eq_true, if_false]
  cases hanswer : d.answer with
  | error fault =>
      rw [entries_of_error hanswer]
      rfl
  | ok r =>
      have hrun : (Machine.runEvent d.argv d.cwd r).isRun = true := rfl
      have houtput : (Machine.outputEvent d.argv r).isRun = false := rfl
      rw [entries_of_ok hanswer]
      simp only [Machine.eventsFor, List.filter_cons, hrun, if_true]
      split
      · simp [houtput]
        rfl
      · rfl

theorem answer_of_dry {d : Deed} {readings : List Number} {before : List Command}
    (dry : sh.context.dryRun = true) (hgives : sh.Gives readings before d)
    (hnamed : IsNamed d.words) : d.answer = .ok (dryResult d.capture) := by
  obtain ⟨m', -, -, hanswer⟩ := hgives
  obtain ⟨argv, -, hwords⟩ := hnamed
  rw [hanswer, respond, dry, hwords, Value.texts?_map_text]
  rfl

theorem filter_events_of_dry (dry : sh.context.dryRun = true) (d : Deed) :
    (d.events sh).filter Event.isDryRun = d.entries.map fun e => dryEvent e.argv e.cwd := by
  simp only [Deed.events, dry, if_true, Deed.entries]
  cases d.answer <;> rfl

/-! ## Records of moves -/

variable {moves : List Move}

theorem flatMap_entries (moves : List Move) :
    moves.flatMap Move.entries = (moves.filterMap Move.deed?).flatMap Deed.entries := by
  induction moves with
  | nil => rfl
  | cons move moves ih => cases move <;> simp [Move.entries, Move.deed?, List.filterMap_cons, ih]

theorem flatMap_commands (sh : Shell) (moves : List Move) :
    moves.flatMap (Move.commands sh) =
      (moves.filterMap Move.deed?).flatMap (Deed.commands sh) := by
  induction moves with
  | nil => rfl
  | cons move moves ih => cases move <;> simp [Move.commands, Move.deed?, List.filterMap_cons, ih]

/-- Live deeds hand their commands to the system. -/
theorem flatMap_commands_of_live (live : sh.context.dryRun = false)
    (hn : sh.seconds.number? = some n) (deeds : List Deed) :
    deeds.flatMap (Deed.commands sh) =
      (deeds.map (handedOf (if n.isPositive then some sh.seconds else none))).map
        Handed.command := by
  rw [List.map_map, List.map_eq_flatMap]
  exact List.flatMap_congr fun d _ => commands_of_live live hn

theorem flatMap_commands_of_dry (dry : sh.context.dryRun = true) (moves : List Move) :
    moves.flatMap (Move.commands sh) = [] := by
  rw [flatMap_commands, List.flatMap_eq_nil_iff]
  intro d _
  rw [Deed.commands, if_pos dry]

/-- Events of a kind that only deeds log are those of the deeds. -/
theorem filter_flatMap_events {kind : Event → Bool} (h : ∀ e, .noted e ∈ moves → kind e = false) :
    (moves.flatMap (Move.events sh)).filter kind =
      (moves.filterMap Move.deed?).flatMap fun d => (d.events sh).filter kind := by
  induction moves with
  | nil => rfl
  | cons move moves ih =>
      have hrest := ih fun e he => h e (.tail _ he)
      cases move with
      | did d => simp [Move.events, Move.deed?, hrest]
      | noted e => simp [Move.events, Move.deed?, List.filterMap_cons, hrest, h e (.head _)]

theorem mem_of_mem_deeds {d : Deed} (h : d ∈ moves.filterMap Move.deed?) : .did d ∈ moves := by
  obtain ⟨move, hmove, hd⟩ := List.mem_filterMap.1 h
  cases move with
  | did e =>
      cases hd
      exact hmove
  | noted e => cases hd

/-! ## The records agree -/

/-- The records that a program leaves behind a machine agree.  The shell has a number of seconds
for its commands. -/
structure Ledger (sh : Shell) (n : Number) (now : Timestamp) (m : Machine) (p : Played) : Prop where
  /-- In a live run each row of a command is of one that was handed to the system, and the history
  has the entries of these commands.  They have one unless something keeps them from a result. -/
  live : sh.context.dryRun = false → ∃ handed : List Handed,
    p.session.machine.commands = m.commands ++ handed.map Handed.command ∧
    p.session.history = handed.filterMap Handed.entry? ∧
    List.Forall₂ (Handed.Matches (if n.isPositive then some sh.seconds else none))
      (p.rows.filter Row.isCommand) handed ∧
    ∀ front h back, handed = front ++ h :: back →
      h.IsKept sh.world m.readings (m.commands ++ front.map Handed.command)
  /-- The log has a line for each entry, in a quiet run only if the exit code is not 0. -/
  told : sh.context.dryRun = false → ∃ lines : List Text,
    Bindery.log now sh.context p.session.machine.events =
      Bindery.log now sh.context m.events ++ Text.ofLines lines ∧
    TellsOf (Executed.IsLine now sh.context) lines
      (p.session.history.filter fun e => !sh.context.quiet || e.code ≠ 0)
  /-- In a dry run nothing is handed to the system, and each row of a command is of an entry with
  the exit code 0. -/
  dry : sh.context.dryRun = true → p.session.machine.commands = m.commands ∧
    (∀ e ∈ p.session.history, e.code = 0) ∧
    List.Forall₂ Row.Tells (p.rows.filter Row.isCommand) p.session.history
  /-- The log has a line for each entry then, unless the run is quiet. -/
  dryTold : sh.context.dryRun = true → ∃ lines : List Text,
    Bindery.log now sh.context p.session.machine.events =
      Bindery.log now sh.context m.events ++ Text.ofLines lines ∧
    TellsOf (Executed.IsDryLine now sh.context) lines
      (if sh.context.quiet then [] else p.session.history)

/-- The event of an entry is shown unless the run is quiet and the command ended well. -/
theorem isShown_event (ctx : Context) (e : Executed) :
    e.event.isShown ctx = (!ctx.quiet || e.code ≠ 0) := by
  unfold Event.isShown Executed.event
  by_cases hcode : e.code = 0
  · simp only [hcode, if_true]
    cases ctx.quiet <;> cases ctx.verbose <;> rfl
  · simp only [hcode, if_false, ne_eq, not_false_eq_true, decide_true, Bool.or_true]
    cases ctx.quiet <;> cases ctx.verbose <;> rfl

theorem isShown_dryEvent (ctx : Context) (argv : List Text) (cwd : Path) :
    (dryEvent argv cwd).isShown ctx = !ctx.quiet := by
  unfold Event.isShown dryEvent
  cases ctx.quiet <;> cases ctx.verbose <;> rfl

section

variable {s : Session} {p : Played} {steps : List Step} {now : Timestamp}
  (hnil : s.history = []) (hgains : s.Gains sh moves p.session)
  (hdoes : Step.Does sh s.cwd steps moves p.rows p.outcome)

include hnil hgains

/-- The history that a program leaves is that of its deeds. -/
theorem history_eq :
    p.session.history = (moves.filterMap Move.deed?).flatMap Deed.entries := by
  rw [hgains.history, hnil, List.nil_append, flatMap_entries]

/-- The history has the entries of what the deeds hand to the system. -/
theorem history_eq_filterMap (limit : Option Value) : p.session.history =
    ((moves.filterMap Move.deed?).map (handedOf limit)).filterMap Handed.entry? := by
  rw [history_eq hnil hgains, List.filterMap_map,
    List.filterMap_eq_flatMap_toList (Handed.entry? ∘ handedOf limit)]
  exact List.flatMap_congr fun d _ => (toList_head?_entries d).symm

/-- The log goes on with the lines of the events that are shown, and those of a kind are those of
the entries. -/
theorem exists_lines (kind : Event → Bool) (eventOf : Executed → Event)
    (tells : Executed → Text → Prop) (hnoted : ∀ e, .noted e ∈ moves → kind e = false)
    (hdeeds : ∀ d ∈ moves.filterMap Move.deed?,
      (d.events sh).filter kind = d.entries.map eventOf)
    (htells : ∀ e, tells e ((eventOf e).line now sh.context))
    (hother : ∀ event ∈ moves.flatMap (Move.events sh), kind event = false →
      ∀ e, ¬tells e (event.line now sh.context)) :
    ∃ lines : List Text, Bindery.log now sh.context p.session.machine.events =
        Bindery.log now sh.context s.machine.events ++ Text.ofLines lines ∧
      TellsOf tells lines
        (p.session.history.filter fun e => (eventOf e).isShown sh.context) := by
  have hkind : (moves.flatMap (Move.events sh)).filter kind = p.session.history.map eventOf := by
    rw [filter_flatMap_events hnoted, history_eq hnil hgains, List.map_flatMap]
    exact List.flatMap_congr hdeeds
  refine ⟨((moves.flatMap (Move.events sh)).filter (Event.isShown sh.context)).map
    (Event.line now sh.context), ?_, tellsOf_of_filter kind _ ?_ ?_⟩
  · rw [hgains.events, log_append, log_eq_ofLines now sh.context (moves.flatMap _)]
  · rw [List.filter_comm, hkind, List.filter_map, List.forall₂_map_left_iff]
    exact List.forall₂_same.2 fun e _ => htells e
  · intro event hevent
    exact hother event (List.mem_filter.1 hevent).1

end

/-- Besides its entry a live deed logs its output only. -/
theorem event_of_live (live : sh.context.dryRun = false) {d : Deed} {event : Event}
    (hevent : event ∈ d.events sh) (hkind : event.isRun = false) :
    ∃ argv r, event = Machine.outputEvent argv r := by
  simp only [Deed.events, live, Bool.false_eq_true, if_false] at hevent
  cases hanswer : d.answer with
  | error fault =>
      rw [hanswer] at hevent
      cases hevent
  | ok r =>
      rw [hanswer] at hevent
      rcases List.mem_cons.1 hevent with rfl | hevent
      · cases hkind
      · split at hevent
        · exact ⟨_, _, List.mem_singleton.1 hevent⟩
        · cases hevent

/-- A dry deed logs its entry only. -/
theorem isDryRun_of_dry (dry : sh.context.dryRun = true) {d : Deed} {event : Event}
    (hevent : event ∈ d.events sh) : event.isDryRun = true := by
  simp only [Deed.events, dry, if_true] at hevent
  cases hanswer : d.answer with
  | error fault =>
      rw [hanswer] at hevent
      cases hevent
  | ok r =>
      rw [hanswer] at hevent
      cases List.mem_singleton.1 hevent
      rfl

/-- An event of moves was noted, or is of a deed. -/
theorem mem_events {event : Event} (h : event ∈ moves.flatMap (Move.events sh)) :
    .noted event ∈ moves ∨ ∃ d, .did d ∈ moves ∧ event ∈ d.events sh := by
  obtain ⟨move, hmove, hevent⟩ := List.mem_flatMap.1 h
  cases move with
  | did d => exact .inr ⟨d, hmove, hevent⟩
  | noted e =>
      cases List.mem_singleton.1 hevent
      exact .inl hmove

section

variable {dir : Path} {rows : List Row} {outcome : Except Fault Unit} {steps : List Step}
  {now : Timestamp} {event : Event} (hdoes : Step.Does sh dir steps moves rows outcome)
  (hevent : event ∈ moves.flatMap (Move.events sh))

include hdoes hevent

/-- What a live program logs besides its entries tells of no command that ended. -/
theorem not_isLine_of_mem (live : sh.context.dryRun = false) (hkind : event.isRun = false)
    (e : Executed) : ¬e.IsLine now sh.context (event.line now sh.context) := by
  refine e.not_isLine ?_
  rcases mem_events hevent with hnoted | ⟨d, -, hd⟩
  · exact .inl (hdoes.eq_enterEvent hnoted)
  · exact .inr (event_of_live live hd hkind)

/-- What a dry program logs besides its entries tells of no command of a dry run. -/
theorem not_isDryLine_of_mem (dry : sh.context.dryRun = true) (hkind : event.isDryRun = false)
    (e : Executed) : ¬e.IsDryLine now sh.context (event.line now sh.context) := by
  rcases mem_events hevent with hnoted | ⟨d, -, hd⟩
  · obtain ⟨target, rfl⟩ := hdoes.eq_enterEvent hnoted
    exact e.not_isDryLine target
  · rw [isDryRun_of_dry dry hd] at hkind
    cases hkind

end

/-- Live deeds have entries if nothing keeps their commands from a result. -/
theorem isKept_of_split (hgives : sh.GivesAll m.readings m.commands moves)
    (live : sh.context.dryRun = false)
    (hwords : ∀ d ∈ moves.filterMap Move.deed?, IsNamed d.words)
    (hn : sh.seconds.number? = some n) {front back : List Handed} {h : Handed}
    (hsplit : (moves.filterMap Move.deed?).map
      (handedOf (if n.isPositive then some sh.seconds else none)) = front ++ h :: back) :
    h.IsKept sh.world m.readings (m.commands ++ front.map Handed.command) := by
  obtain ⟨deeds, rest, hdeeds, rfl, hrest⟩ := List.map_eq_append_iff.1 hsplit
  obtain ⟨d, later, rfl, rfl, -⟩ := List.map_eq_cons_iff.1 hrest
  have hgiven := hgives.gives hdeeds
  rw [flatMap_commands_of_live live hn] at hgiven
  refine isKept_handedOf hgiven live (hwords d ?_) hn
  rw [hdeeds]
  exact List.mem_append_right _ (.head _)

/-- What a program hands to the system, its history and its log agree. -/
theorem play_ledger {start : Option Path} {s : Session} {steps : List Step}
    (hopen : sh.openAt start m = .ok s) (hnamed : ∀ words ∈ Step.wordsAll steps, IsNamed words)
    (hn : sh.seconds.number? = some n) (now : Timestamp) :
    Ledger sh n now m (Step.playAll sh steps s) := by
  obtain ⟨moves, hgains, hdoes⟩ := Step.playAll_scoped sh steps s
  have hmachine : s.machine = m := by rw [eq_of_openAt hopen]
  have hnil : s.history = [] := by rw [eq_of_openAt hopen]
  have hwords : ∀ d ∈ moves.filterMap Move.deed?, IsNamed d.words :=
    fun d hd => hnamed _ (hdoes.words_mem (mem_of_mem_deeds hd))
  have hcommands : (Step.playAll sh steps s).session.machine.commands =
      m.commands ++ moves.flatMap (Move.commands sh) := by rw [hgains.commands, hmachine]
  constructor
  case live =>
    intro live
    rw [flatMap_commands, flatMap_commands_of_live live hn] at hcommands
    refine ⟨_, hcommands, history_eq_filterMap hnil hgains
      (if n.isPositive then some sh.seconds else none), ?_, ?_⟩
    · rw [hdoes.filter_rows, List.forall₂_map_left_iff, List.forall₂_map_right_iff]
      exact List.forall₂_same.2 fun d hd => matches_handedOf (hwords d hd)
    · intro front h back hsplit
      exact isKept_of_split (hmachine ▸ hgains.gives) live hwords hn hsplit
  case told =>
    intro live
    have hnoted : ∀ e, .noted e ∈ moves → e.isRun = false := by
      intro e he
      obtain ⟨target, rfl⟩ := hdoes.eq_enterEvent he
      rfl
    have hlines := exists_lines hnil hgains Event.isRun Executed.event
      (Executed.IsLine now sh.context) hnoted (fun d _ => filter_events_of_live live d)
      Executed.isLine_event fun _ hevent => not_isLine_of_mem hdoes hevent live
    simpa only [hmachine, isShown_event] using hlines
  case dry =>
    intro dry
    rw [flatMap_commands_of_dry dry, List.append_nil] at hcommands
    have hdeeds : ∀ d ∈ moves.filterMap Move.deed?, d.answer = .ok (dryResult d.capture) := by
      intro d hd
      obtain ⟨before, hgiven⟩ := hgains.gives.of_mem (mem_of_mem_deeds hd)
      exact answer_of_dry dry hgiven (hwords d hd)
    have hhistory : (Step.playAll sh steps s).session.history =
        (moves.filterMap Move.deed?).map fun d => entryOf d (dryResult d.capture) := by
      rw [history_eq hnil hgains, List.map_eq_flatMap]
      exact List.flatMap_congr fun d hd => entries_of_ok (hdeeds d hd)
    refine ⟨hcommands, fun e he => ?_, ?_⟩
    · rw [hhistory] at he
      obtain ⟨d, -, rfl⟩ := List.mem_map.1 he
      rfl
    · rw [hhistory, hdoes.filter_rows, List.forall₂_map_left_iff, List.forall₂_map_right_iff]
      exact List.forall₂_same.2 fun d hd => row_tells (hdeeds d hd)
  case dryTold =>
    intro dry
    have hnoted : ∀ e, .noted e ∈ moves → e.isDryRun = false := by
      intro e he
      obtain ⟨target, rfl⟩ := hdoes.eq_enterEvent he
      rfl
    have hlines := exists_lines hnil hgains Event.isDryRun (fun e => dryEvent e.argv e.cwd)
      (Executed.IsDryLine now sh.context) hnoted (fun d _ => filter_events_of_dry dry d)
      Executed.isDryLine_event fun _ hevent => not_isDryLine_of_mem hdoes hevent dry
    simp only [hmachine, isShown_dryEvent] at hlines
    cases hquiet : sh.context.quiet <;> simpa [hquiet] using hlines

/-- A quiet shell with a limit of five seconds, where some programs fail in some way. -/
def auditShell : Shell where
  world :=
    { files := (FileSystem.mk [] []).create ["srv", "book", "docs"] .directory
      current := ["srv", "book"]
      children := fun _ c =>
        { isProcess := true
          startFault := if c.program.text? = some "missing" then some .missing else none
          hangs := c.program.text? = some "sleep"
          exit := if c.program.text? = some "false" then 1 else 0 } }
  context :=
    { runId := "r1", root := .ofNames ["srv", "book"], logJson := false, verbose := true,
      quiet := true, dryRun := false, ci := false, refName := none }
  seconds := .number (.int 5)

/-- Commands that fail in each way, with the faults caught, and one that the system refuses for
the byte 0 in a word. -/
def auditSteps : List Step :=
  [.cd (.parse "docs") [.attempt [.run [.text "false"], .run [.text "true"]],
      .attempt [.capture [.text "sleep"]], .attempt [.run [.text "true", .text "\x00"]],
      .attempt [.run [.text "missing"]]],
    .capture [.text "true"]]

/-- A machine whose clock stands still. -/
def stillMachine : Machine := { clock := [.int 0] }

theorem auditSteps_named : ∀ words ∈ Step.wordsAll auditSteps, IsNamed words := by
  intro words hwords
  simp only [auditSteps, Step.wordsAll, Step.words, List.append_nil, List.cons_append,
    List.nil_append, List.mem_cons, List.not_mem_nil, or_false] at hwords
  rcases hwords with rfl | rfl | rfl | rfl | rfl | rfl
  case inr.inr.inr.inl => exact ⟨["true", "\x00"], List.cons_ne_nil _ _, rfl⟩
  all_goals exact ⟨[_], List.cons_ne_nil _ _, rfl⟩

theorem play_ledger_of_failures :
    let s : Session := { cwd := .ofNames ["srv", "book"], machine := stillMachine }
    auditShell.openAt none stillMachine = .ok s ∧
    (∀ words ∈ Step.wordsAll auditSteps, IsNamed words) ∧
    (∀ now, Ledger auditShell (.int 5) now stillMachine (Step.playAll auditShell auditSteps s)) ∧
    ((Step.playAll auditShell auditSteps s).session.history.map fun e => e.code) =
      [1, 124, 127, 0] ∧
    (Step.playAll auditShell auditSteps s).session.machine.commands.length = 5 := by
  have hopen : auditShell.openAt none stillMachine =
      .ok { cwd := .ofNames ["srv", "book"], machine := stillMachine } := rfl
  refine ⟨hopen, auditSteps_named, ?_, by decide +kernel, by decide +kernel⟩
  exact play_ledger hopen auditSteps_named rfl

/-- A command that was handed to the system has no entry in the history if its time is out of
range, or if it is a process and the system refuses a word of it. -/
theorem no_entry_of_lost :
    let steps : List Step := [.run [.text "npm"]]
    let far : Session :=
      { cwd := .ofNames ["srv", "book"], machine := { clock := [.float 0.0, .float 1e306] } }
    let p := Step.playAll auditShell steps far
    let refused : List Step := [.run [.text "npm", .text "\x00"]]
    let still : Session := { cwd := .ofNames ["srv", "book"], machine := stillMachine }
    let p' := Step.playAll auditShell refused still
    (∀ words ∈ Step.wordsAll steps, IsNamed words) ∧
    auditShell.openAt none far.machine = .ok far ∧
    p.session.machine.commands.length = 1 ∧ p.session.history = [] ∧
    (∀ words ∈ Step.wordsAll refused, IsNamed words) ∧
    auditShell.openAt none still.machine = .ok still ∧
    p'.session.machine.commands.length = 1 ∧ p'.session.history = [] := by
  intro steps far p refused still p'
  have hnamed : ∀ words ∈ Step.wordsAll steps, IsNamed words := by
    intro words hwords
    cases List.mem_singleton.1 hwords
    exact ⟨["npm"], List.cons_ne_nil _ _, rfl⟩
  have hrefused : ∀ words ∈ Step.wordsAll refused, IsNamed words := by
    intro words hwords
    cases List.mem_singleton.1 hwords
    exact ⟨["npm", "\x00"], List.cons_ne_nil _ _, rfl⟩
  exact ⟨hnamed, rfl, by decide +kernel, by decide +kernel, hrefused, rfl, by decide +kernel,
    by decide +kernel⟩

end Shell
end Bindery
