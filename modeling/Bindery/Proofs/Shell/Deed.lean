import Bindery.Proofs.FileSystem.Taken
import Bindery.Proofs.Machine.Answer
import Bindery.Proofs.Shell.Follows

/-!
# Deeds

A `Deed` is a command that a shell was asked for, with the directory it was asked for in and
with its answer.  The entry in the history, the commands that are started and the events that
are logged are functions of the deed.

`Session.Gains` says that a session goes on from another one in the same directories, and that
what it has more is that of some deeds and events, with answers that the shell gives.  Every
single act of a shell gains something (`executeWords_gains`, `inside_gains`).
-/

namespace Bindery

/-- A command that a shell was asked for. -/
structure Deed where
  /-- The program and its arguments. -/
  words : List Value
  /-- The directory to run in. -/
  cwd : Path
  /-- The output is captured. -/
  capture : Bool
  /-- What it came to. -/
  answer : Except Machine.Fault Result

namespace Deed

variable (sh : Shell) (d : Deed)

/-- The words of a deed as texts. -/
def argv : List Text := (Value.texts? d.words).getD []

/-- What a deed adds to the history. -/
def entries : List Executed :=
  match d.answer with
  | .ok r => [⟨d.argv, d.cwd, r.code, r.millis⟩]
  | .error _ => []

/-- What a deed starts. -/
def commands : List Command :=
  if sh.context.dryRun then [] else Machine.startedFor d.words d.cwd d.capture sh.seconds

/-- What a deed logs. -/
def events : List Event :=
  if sh.context.dryRun then
    match d.answer with
    | .ok _ => [Shell.dryEvent d.argv d.cwd]
    | .error _ => []
  else Machine.eventsFor d.argv d.cwd d.capture d.answer

/-- The fault of a command that failed. -/
def failure (r : Result) : CommandFailure :=
  ⟨d.argv, d.cwd, r.code, .exited (Text.trim r.stderr)⟩

/-- What a deed comes to for the shell. -/
def outcome : Except Shell.Fault Result :=
  match d.answer with
  | .ok r => if r.code = 0 then .ok r else .error (.commandFailed (d.failure r))
  | .error fault => .error (.noResult fault)

end Deed

/-- A deed, or an event that is logged besides. -/
inductive Move where
  /-- A command was asked for. -/
  | did (d : Deed)
  /-- An event was logged. -/
  | noted (e : Event)

namespace Move

/-- What a move adds to the history. -/
def entries : Move → List Executed
  | .did d => d.entries
  | .noted _ => []

/-- What a move starts. -/
def commands (sh : Shell) : Move → List Command
  | .did d => d.commands sh
  | .noted _ => []

/-- What a move logs. -/
def events (sh : Shell) : Move → List Event
  | .did d => d.events sh
  | .noted e => [e]

/-- The deed that a move is, if it is one. -/
def deed? : Move → Option Deed
  | .did d => some d
  | .noted _ => none

end Move

namespace Shell

/-- The answer to a command on a machine, and what becomes of the machine. -/
def respond (sh : Shell) (words : List Value) (cwd : Path) (capture : Bool) (m : Machine) :
    Except Machine.Fault Result × Machine :=
  if sh.context.dryRun then
    match Value.texts? words with
    | some argv => (.ok (dryResult capture), m.logged (dryEvent argv cwd))
    | none => (.error .wordKind, m)
  else m.runWords sh.world sh.context words cwd capture sh.seconds

/-- A deed has the answer that the shell gives behind some commands, with a clock that can be
read in some ways. -/
def Gives (sh : Shell) (readings : List Number) (before : List Command) (d : Deed) : Prop :=
  ∃ m : Machine, m.commands = before ∧ m.readings ⊆ readings ∧
    d.answer = (sh.respond d.words d.cwd d.capture m).1

/-- All deeds of a list have the answers that the shell gives, each behind the ones before. -/
def GivesAll (sh : Shell) (readings : List Number) : List Command → List Move → Prop
  | _, [] => True
  | before, .did d :: moves =>
      sh.Gives readings before d ∧ GivesAll sh readings (before ++ d.commands sh) moves
  | before, .noted _ :: moves => GivesAll sh readings before moves

variable {sh : Shell} {readings more : List Number} {before : List Command}
  {moves later : List Move}

theorem Gives.mono {d : Deed} (h : sh.Gives readings before d) (hmore : readings ⊆ more) :
    sh.Gives more before d := by
  obtain ⟨m, hcommands, hreadings, hanswer⟩ := h
  exact ⟨m, hcommands, List.Subset.trans hreadings hmore, hanswer⟩

theorem GivesAll.mono (h : sh.GivesAll readings before moves) (hmore : readings ⊆ more) :
    sh.GivesAll more before moves := by
  induction moves generalizing before with
  | nil => exact trivial
  | cons move moves ih =>
      cases move with
      | did d => exact ⟨h.1.mono hmore, ih h.2⟩
      | noted e => exact ih (show sh.GivesAll readings before moves from h)

theorem GivesAll.append (h : sh.GivesAll readings before moves)
    (h' : sh.GivesAll readings (before ++ moves.flatMap (Move.commands sh)) later) :
    sh.GivesAll readings before (moves ++ later) := by
  induction moves generalizing before with
  | nil => simpa using h'
  | cons move moves ih =>
      cases move with
      | did d =>
          refine ⟨h.1, ih h.2 ?_⟩
          rwa [List.flatMap_cons, ← List.append_assoc] at h'
      | noted e =>
          exact ih (show sh.GivesAll readings before moves from h)
            (by simpa [Move.commands] using h')

theorem GivesAll.of_mem (h : sh.GivesAll readings before moves) {d : Deed}
    (hd : .did d ∈ moves) : ∃ before, sh.Gives readings before d := by
  induction moves generalizing before with
  | nil => cases hd
  | cons move moves ih =>
      cases move with
      | did e =>
          rcases List.mem_cons.1 hd with hd | hd
          · cases hd
            exact ⟨before, h.1⟩
          · exact ih h.2 hd
      | noted e =>
          rcases List.mem_cons.1 hd with hd | hd
          · cases hd
          · exact ih (show sh.GivesAll readings before moves from h) hd

/-- Each deed has the answer that the shell gives behind the deeds before it. -/
theorem GivesAll.gives (h : sh.GivesAll readings before moves) {front back : List Deed} {d : Deed}
    (hsplit : moves.filterMap Move.deed? = front ++ d :: back) :
    sh.Gives readings (before ++ front.flatMap (Deed.commands sh)) d := by
  induction moves generalizing before front with
  | nil => simp at hsplit
  | cons move moves ih =>
      cases move with
      | noted e => exact ih (show sh.GivesAll readings before moves from h) hsplit
      | did e =>
          rw [List.filterMap_cons_some (show Move.deed? (.did e) = some e from rfl)] at hsplit
          cases front with
          | nil =>
              cases (List.cons.inj hsplit).1
              simpa using h.1
          | cons first front =>
              obtain ⟨rfl, hrest⟩ := List.cons.inj hsplit
              rw [List.flatMap_cons, ← List.append_assoc]
              exact ih h.2 hrest

end Shell

/-! ## Sessions -/

/-- The directories of a session, the one that the shell is in first. -/
def Session.stack (s : Session) : List Path := s.cwd :: s.outer

/-- A session that goes on from another one in the same directories, with some moves made. -/
structure Session.Gains (sh : Shell) (s : Session) (moves : List Move) (s' : Session) : Prop
    extends s.Extends (moves.flatMap Move.entries) (moves.flatMap (Move.commands sh)) s' where
  events : s'.machine.events = s.machine.events ++ moves.flatMap (Move.events sh)
  gives : sh.GivesAll s.machine.readings s.machine.commands moves

namespace Session.Gains

variable {sh : Shell} {s s₁ s₂ : Session} {moves later : List Move}

theorem refl (s : Session) : s.Gains sh [] s :=
  ⟨.refl s, by simp, trivial⟩

theorem trans (h : s.Gains sh moves s₁) (h' : s₁.Gains sh later s₂) :
    s.Gains sh (moves ++ later) s₂ where
  toExtends := by
    rw [List.flatMap_append, List.flatMap_append]
    exact h.toExtends.trans h'.toExtends
  events := by rw [h'.events, h.events, List.flatMap_append, List.append_assoc]
  gives := h.gives.append (h.commands ▸ h'.gives.mono h.readings)

theorem logged (s : Session) (e : Event) : s.Gains sh [.noted e] (s.logged e) :=
  ⟨.logged s e, rfl, trivial⟩

/-- A deed is gained if its answer is the one that the shell gives. -/
theorem did {d : Deed} {machine : Machine}
    (hmachine : s.machine.Leaves (d.commands sh) (d.events sh) machine)
    (hanswer : d.answer = (sh.respond d.words d.cwd d.capture s.machine).1) :
    s.Gains sh [.did d] { s with history := s.history ++ d.entries, machine } where
  cwd := rfl
  outer := rfl
  history := by simp [Move.entries]
  commands := by simpa [Move.commands] using hmachine.commands
  events := by simpa [Move.events] using hmachine.events
  readings := hmachine.readings
  gives := ⟨⟨s.machine, rfl, List.Subset.refl _, hanswer⟩, trivial⟩

/-- What is gained in a directory is gained outside of it when the directory is left. -/
theorem leave {target : Path} (h : (s.enter target).Gains sh moves s₁) :
    s.Gains sh moves s₁.leave := by
  have houter : s₁.outer = s.cwd :: s.outer := h.outer
  have hmachine : s₁.leave.machine = s₁.machine := by simp only [Session.leave, houter]
  exact ⟨h.toExtends.leave, hmachine ▸ h.events, h.gives⟩

theorem stack_eq (h : s.Gains sh moves s₁) : s₁.stack = s.stack := by
  rw [Session.stack, Session.stack, h.cwd, h.outer]

theorem history_prefix (h : s.Gains sh moves s₁) : s.history <+: s₁.history :=
  ⟨_, h.history.symm⟩

end Session.Gains

/-! ## Acts -/

namespace Act

variable {α β : Type} {sh : Shell} {s : Session}

/-- An act of a shell makes moves from a session on, and comes to what is good for them. -/
def Makes (act : Act α) (sh : Shell) (s : Session)
    (good : List Move → Except Shell.Fault α → Prop) : Prop :=
  ∃ moves, s.Gains sh moves (act.run s).2 ∧ good moves (act.run s).1

namespace Makes

variable {good good₁ : List Move → Except Shell.Fault α → Prop}
  {good' : List Move → Except Shell.Fault β → Prop}

theorem pure {a : α} (h : good [] (.ok a)) : (pure a : Act α).Makes sh s good :=
  ⟨[], .refl s, h⟩

theorem throw {fault : Shell.Fault} (h : good [] (.error fault)) :
    (throw fault : Act α).Makes sh s good :=
  ⟨[], .refl s, h⟩

theorem mono {act : Act α} (h : act.Makes sh s good)
    (hgood : ∀ moves outcome, good moves outcome → good₁ moves outcome) :
    act.Makes sh s good₁ := by
  obtain ⟨moves, hgains, hgood'⟩ := h
  exact ⟨moves, hgains, hgood _ _ hgood'⟩

/-- The moves of one act behind another come behind its moves. -/
theorem bind {act : Act α} {f : α → Act β} (h : act.Makes sh s good)
    (herror : ∀ moves fault, good moves (.error fault) → good' moves (.error fault))
    (hok : ∀ moves a s', good moves (.ok a) → s'.cwd = s.cwd →
      (f a).Makes sh s' fun later outcome => good' (moves ++ later) outcome) :
    (act >>= f).Makes sh s good' := by
  obtain ⟨moves, hgains, hgood⟩ := h
  rcases hrun : act.run s with ⟨fault | a, s₁⟩
  · rw [hrun] at hgains hgood
    refine ⟨moves, ?_⟩
    rw [run_bind_of_error hrun]
    exact ⟨hgains, herror moves fault hgood⟩
  · rw [hrun] at hgains hgood
    obtain ⟨later, hgains', hgood'⟩ := hok moves a s₁ hgood hgains.cwd
    refine ⟨moves ++ later, ?_⟩
    rw [run_bind_of_ok hrun]
    exact ⟨hgains.trans hgains', hgood'⟩

end Makes
end Act

namespace Shell

variable (sh : Shell) (s : Session)

theorem log_makes (e : Event) :
    (log e).Makes sh s fun moves outcome => moves = [.noted e] ∧ outcome = .ok () :=
  ⟨[.noted e], .logged s e, rfl, rfl⟩

/-- A deed leaves on the machine what it starts and what it logs. -/
theorem respond_leaves {d : Deed} {m : Machine}
    (hanswer : d.answer = (sh.respond d.words d.cwd d.capture m).1) :
    m.Leaves (d.commands sh) (d.events sh) (sh.respond d.words d.cwd d.capture m).2 := by
  unfold Deed.commands Deed.events Deed.argv
  rw [hanswer, respond]
  split
  · cases Value.texts? d.words with
    | some argv => exact ⟨by simp, rfl, List.Subset.refl _⟩
    | none => exact ⟨by simp, by simp, List.Subset.refl _⟩
  · exact Machine.runWords_leaves sh.world sh.context d.words d.cwd d.capture sh.seconds m

/-- A command of texts comes to what its deed comes to, and is recorded if it has an answer. -/
theorem run_execute {argv : List Text} {capture : Bool} {d : Deed} {machine : Machine}
    (hargv : d.argv = argv) (hcwd : d.cwd = s.cwd)
    (hattempt : (sh.attempt argv capture).run s =
      (d.answer.mapError .noResult, { s with machine })) :
    (sh.execute argv capture).run s =
      (d.outcome, { s with history := s.history ++ d.entries, machine }) := by
  unfold Deed.outcome Deed.entries Deed.failure
  cases hanswer : d.answer with
  | error fault =>
      rw [hanswer] at hattempt
      rw [run_execute_of_error hattempt]
      simp only [List.append_nil]
  | ok r =>
      rw [hanswer] at hattempt
      dsimp only
      split
      · next hcode => rw [run_execute_of_zero hattempt hcode, recorded, hargv, hcwd]
      · next hcode => rw [run_execute_of_nonzero hattempt hcode, recorded, hargv, hcwd]

theorem run_attempt {argv : List Text} {words : List Value} {capture : Bool}
    (hwords : Value.texts? words = some argv) : (sh.attempt argv capture).run s =
      ((sh.respond words s.cwd capture s.machine).1.mapError .noResult,
        { s with machine := (sh.respond words s.cwd capture s.machine).2 }) := by
  unfold respond
  cases dry : sh.context.dryRun with
  | true =>
      rw [run_attempt_of_dry dry, hwords]
      rfl
  | false =>
      rw [run_attempt_of_live dry, Machine.runWords, hwords]
      simp only [Bool.false_eq_true, if_false]
      rcases s.machine.run sh.world sh.context argv s.cwd capture sh.seconds with ⟨_ | _, _⟩ <;> rfl

/-- A command of any words comes to what its deed comes to. -/
theorem run_executeWords {d : Deed} (hcwd : d.cwd = s.cwd)
    (hanswer : d.answer = (sh.respond d.words d.cwd d.capture s.machine).1) :
    (sh.executeWords d.words d.capture).run s =
      (d.outcome, { s with
        history := s.history ++ d.entries
        machine := (sh.respond d.words d.cwd d.capture s.machine).2 }) := by
  unfold executeWords
  cases hwords : Value.texts? d.words with
  | some argv =>
      have hargv : d.argv = argv := by rw [Deed.argv, hwords, Option.getD_some]
      refine sh.run_execute s hargv hcwd ?_
      rw [sh.run_attempt s hwords, hanswer, hcwd]
  | none =>
      have herror : ∃ fault, d.answer = .error fault ∧
          (sh.executeUnnamed d.words d.capture).run s = (.error (.noResult fault),
            { s with machine := (sh.respond d.words d.cwd d.capture s.machine).2 }) := by
        rw [hanswer, run_executeUnnamed, respond, hwords, Machine.runWords, hwords, hcwd]
        split
        · exact ⟨.wordKind, rfl, rfl⟩
        · unfold Machine.runUnnamed
          rcases s.machine.execute sh.world d.words s.cwd d.capture sh.seconds with
            ⟨fault | r, m⟩
          · exact ⟨fault, rfl, rfl⟩
          · exact ⟨.wordKind, rfl, rfl⟩
      obtain ⟨fault, hfault, hrun⟩ := herror
      dsimp only
      rw [hrun, Deed.outcome, Deed.entries, hfault]
      simp only [List.append_nil]

/-- A command of any words is one deed in the directory of the shell. -/
theorem executeWords_makes (words : List Value) (capture : Bool) :
    (sh.executeWords words capture).Makes sh s fun moves outcome =>
      ∃ answer, moves = [.did ⟨words, s.cwd, capture, answer⟩] ∧
        outcome = (Deed.mk words s.cwd capture answer).outcome := by
  let d : Deed := ⟨words, s.cwd, capture, (sh.respond words s.cwd capture s.machine).1⟩
  have hrun := sh.run_executeWords s (d := d) rfl rfl
  refine ⟨[.did d], ?_⟩
  rw [hrun]
  exact ⟨.did (sh.respond_leaves rfl) rfl, d.answer, rfl, rfl⟩

theorem run_makes (words : List Value) :
    (sh.run words).Makes sh s fun moves outcome =>
      ∃ answer, moves = [.did ⟨words, s.cwd, false, answer⟩] ∧
        outcome = (Deed.mk words s.cwd false answer).outcome :=
  sh.executeWords_makes s words false

theorem capture_makes (words : List Value) :
    (sh.capture words).Makes sh s fun moves outcome =>
      ∃ answer, moves = [.did ⟨words, s.cwd, true, answer⟩] ∧
        outcome = (Deed.mk words s.cwd true answer).outcome.map fun r => Text.trim r.stdout := by
  refine (sh.executeWords_makes s words true).bind ?_ ?_
  · rintro moves fault ⟨answer, hmoves, houtcome⟩
    exact ⟨answer, hmoves, by rw [← houtcome]; rfl⟩
  · rintro moves r s' ⟨answer, rfl, houtcome⟩ -
    exact .pure ⟨answer, rfl, by rw [← houtcome]; rfl⟩

/-! ## Directories -/

variable {path : Path} {fault : Fault} {dir : Path}

theorem run_target_of_error (h : sh.directory s.cwd path = .error fault) :
    (sh.target path).run s = (.error fault, s) := by
  rw [target, Act.run_mk]
  unfold directory at h
  cases hresolve : sh.world.files.resolve sh.world.current (s.cwd / path) with
  | error fault' =>
      rw [hresolve] at h
      cases h
      rfl
  | ok dir =>
      rw [hresolve] at h
      cases h

theorem run_target_of_ok (h : sh.directory s.cwd path = .ok dir) :
    (sh.target path).run s = (.ok dir, s.logged (enterEvent dir)) := by
  rw [target, Act.run_mk]
  unfold directory at h
  cases hresolve : sh.world.files.resolve sh.world.current (s.cwd / path) with
  | error fault =>
      rw [hresolve] at h
      cases h
  | ok dir' =>
      rw [hresolve] at h
      cases h
      rfl

/-- The system takes a directory that a path leads to. -/
theorem pathFault?_of_directory {sh : Shell} {start path dir : Path}
    (hcurrent : FileSystem.AllTaken sh.world.current) (h : sh.directory start path = .ok dir) :
    FileSystem.pathFault? dir.text = none := by
  unfold directory at h
  cases hresolve : sh.world.files.resolve sh.world.current (start / path) with
  | error fault =>
      rw [hresolve] at h
      cases h
  | ok dir' =>
      rw [hresolve] at h
      cases h
      exact FileSystem.pathFault?_of_resolve hcurrent hresolve

/-- A directory that cannot be resolved keeps the shell from doing anything in it. -/
theorem run_inside_of_error {α : Type} (h : sh.directory s.cwd path = .error fault)
    (body : Path → Act α) : (sh.inside path body).run s = (.error fault, s) :=
  Act.run_bind_of_error (sh.run_target_of_error s h) _

theorem run_inside_of_ok {α : Type} (h : sh.directory s.cwd path = .ok dir)
    (body : Path → Act α) :
    (sh.inside path body).run s = (within dir (body dir)).run (s.logged (enterEvent dir)) :=
  Act.run_bind_of_ok (sh.run_target_of_ok s h) _

/-- What is done in a directory is done behind the event of entering it. -/
theorem inside_makes {α : Type} {body : Path → Act α} {good : List Move → Except Fault α → Prop}
    (herror : ∀ fault, sh.directory s.cwd path = .error fault → good [] (.error fault))
    (hok : ∀ dir s', sh.directory s.cwd path = .ok dir → s'.cwd = dir →
      (body dir).Makes sh s' fun moves outcome => good (.noted (enterEvent dir) :: moves) outcome) :
    (sh.inside path body).Makes sh s good := by
  cases hdir : sh.directory s.cwd path with
  | error fault =>
      refine ⟨[], ?_⟩
      rw [sh.run_inside_of_error s hdir]
      exact ⟨.refl s, herror fault hdir⟩
  | ok dir =>
      obtain ⟨moves, hgains, hgood⟩ := hok dir ((s.logged (enterEvent dir)).enter dir) hdir rfl
      refine ⟨.noted (enterEvent dir) :: moves, ?_⟩
      rw [sh.run_inside_of_ok s hdir, run_within]
      exact ⟨(Session.Gains.logged s (enterEvent dir)).trans hgains.leave, hgood⟩

end Shell
end Bindery
