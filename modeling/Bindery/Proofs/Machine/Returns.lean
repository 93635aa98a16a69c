import Bindery.Proofs.Machine.Ending

/-!
# When a command has a result

A command is run with a context or without one, and it is logged in the first case only
(`Machine.runWith`).  `Machine.runWith_ok_iff` says when it has a result and which one.

The system has to take the words and the directory of the command, and to wait for the child if
it is started.  The time between the two readings of the clock has to be a number of milliseconds.
Two numbers have to be short enough to be written: the limit if the child is stopped, and the time
if it is shown in the log.
-/

namespace Bindery.Machine

variable {w : World} {before : List Command} {c : Command} {ctx : Context}
  {ctx? : Option Context} {argv : List Text} {cwd : Path} {capture : Bool} {seconds : Value}
  {n : Number} {m : Machine} {r r' : Result}

/-! ## Limits -/

theorem limit?_eq_ok (h : seconds.number? = some n) : limit? seconds = .ok (limitOf seconds) := by
  simp [limit?, limitOf, h, Except.toOption]

theorem limitOf_eq (h : seconds.number? = some n) :
    limitOf seconds = if n.isPositive then some seconds else none := by
  simp [limit?, limitOf, h, Except.toOption]

/-- There is a limit if the number of seconds is above 0. -/
theorem timeout_isSome_iff (h : seconds.number? = some n) (argv : List Text) (cwd : Path)
    (capture : Bool) :
    (command argv cwd capture seconds).timeout.isSome = true ↔ n.isPositive = true := by
  simp only [command, limitOf, limit?, h, Except.toOption, Option.join_some]
  cases n.isPositive <;> simp

/-- The limit that a child does not keep to is that of its command. -/
theorem timeout_of_exceeds (h : seconds.number? = some n)
    (hexceeds : w.Exceeds before (command argv cwd capture seconds)) :
    (command argv cwd capture seconds).timeout = some seconds := by
  have hpositive := (timeout_isSome_iff h argv cwd capture).1 hexceeds.1
  exact (limitOf_eq h).trans (if_pos hpositive)

/-! ## Refusals -/

/-- The system refuses the first thing that it does not take: a word of a process, or else the
directory.  What stands in for a process may have any words. -/
inductive Refused (isProcess : Bool) (argv : List Text) (cwd : Path) :
    FileSystem.PathFault → Prop where
  /-- It does not take a word. -/
  | word {front back : List Text} {word : Text} {fault : FileSystem.PathFault}
      (process : isProcess = true) (split : argv = front ++ word :: back)
      (taken : ∀ t ∈ front, FileSystem.pathFault? t = none)
      (h : FileSystem.pathFault? word = some fault) : Refused isProcess argv cwd fault
  /-- It does not take the name of the directory. -/
  | directory {fault : FileSystem.PathFault}
      (taken : isProcess = true → ∀ t ∈ argv, FileSystem.pathFault? t = none)
      (h : FileSystem.pathFault? cwd.text = some fault) : Refused isProcess argv cwd fault

theorem wordFault?_text_eq_none_iff {t : Text} :
    wordFault? (.text t) = none ↔ FileSystem.pathFault? t = none := by
  simp [wordFault?]

theorem findSome?_wordFault?_eq_none_iff {argv : List Text} :
    (argv.map Value.text).findSome? wordFault? = none ↔
      ∀ t ∈ argv, FileSystem.pathFault? t = none := by
  simp [wordFault?_text_eq_none_iff]

theorem findSome?_wordFault?_eq_some_iff {argv : List Text} {fault : Fault} :
    (argv.map Value.text).findSome? wordFault? = some fault ↔
      ∃ f front word back, fault = .refused f ∧ argv = front ++ word :: back ∧
        (∀ t ∈ front, FileSystem.pathFault? t = none) ∧ FileSystem.pathFault? word = some f := by
  rw [List.findSome?_map, List.findSome?_eq_some_iff]
  constructor
  · rintro ⟨front, word, back, hsplit, hword, hfront⟩
    obtain ⟨f, hf, rfl⟩ := Option.map_eq_some_iff.1 (show Option.map _ _ = some fault from hword)
    exact ⟨f, front, word, back, rfl, hsplit,
      fun t ht => wordFault?_text_eq_none_iff.1 (hfront t ht), hf⟩
  · rintro ⟨f, front, word, back, rfl, hsplit, hfront, hword⟩
    refine ⟨front, word, back, hsplit, ?_,
      fun t ht => wordFault?_text_eq_none_iff.2 (hfront t ht)⟩
    rw [Function.comp_apply, wordFault?, hword]
    rfl

/-- When the system takes a command of texts. -/
theorem refusal?_eq_none_iff {child : Child} (hargv : argv ≠ []) :
    refusal? child (command argv cwd capture seconds) = none ↔
      (child.isProcess = true → ∀ t ∈ argv, FileSystem.pathFault? t = none) ∧
      FileSystem.pathFault? cwd.text = none := by
  have hwords : (argv.map Value.text).isEmpty = false := by simpa using hargv
  rw [refusal?, Option.orElse_eq_orElse, Option.orElse_eq_or, Option.or_eq_none_iff]
  cases child.isProcess with
  | false => simp [command]
  | true => simp [command, wordsFault?, hwords, wordFault?_text_eq_none_iff]

/-- Why the system refuses a command of texts. -/
theorem refusal?_eq_some_iff {child : Child} {fault : Fault} (hargv : argv ≠ []) :
    refusal? child (command argv cwd capture seconds) = some fault ↔
      ∃ f, fault = .refused f ∧ Refused child.isProcess argv cwd f := by
  have hwords : (argv.map Value.text).isEmpty = false := by simpa using hargv
  have hcases : refusal? child (command argv cwd capture seconds) = some fault ↔
      (if child.isProcess then (argv.map Value.text).findSome? wordFault? else none) = some fault ∨
      (if child.isProcess then (argv.map Value.text).findSome? wordFault? else none) = none ∧
        (FileSystem.pathFault? cwd.text).map Fault.refused = some fault := by
    rw [refusal?, Option.orElse_eq_orElse, Option.orElse_eq_or, Option.or_eq_some_iff]
    simp only [command, wordsFault?, hwords, Bool.false_eq_true, if_false]
  rw [hcases]
  constructor
  · rintro (hword | ⟨hnone, hdir⟩)
    · split at hword
      · next hprocess =>
          obtain ⟨f, front, word, back, rfl, hsplit, hfront, hf⟩ :=
            findSome?_wordFault?_eq_some_iff.1 hword
          exact ⟨f, rfl, .word hprocess hsplit hfront hf⟩
      · cases hword
    · obtain ⟨f, hf, rfl⟩ := Option.map_eq_some_iff.1 hdir
      refine ⟨f, rfl, .directory (fun hprocess => ?_) hf⟩
      rw [if_pos hprocess] at hnone
      exact findSome?_wordFault?_eq_none_iff.1 hnone
  · rintro ⟨f, rfl, hrefused⟩
    cases hrefused with
    | word hprocess hsplit hfront hf =>
        rw [if_pos hprocess]
        exact .inl (findSome?_wordFault?_eq_some_iff.2 ⟨f, _, _, _, rfl, hsplit, hfront, hf⟩)
    | directory htaken hf =>
        refine .inr ⟨?_, by rw [hf]; rfl⟩
        split
        · next hprocess => exact findSome?_wordFault?_eq_none_iff.2 (htaken hprocess)
        · rfl

/-- The system waits for the child of any command under some limits. -/
theorem waitFault?_eq_none {child : Child}
    (h : ∀ n, seconds.number? = some n → n.waitFault? capture = none) :
    waitFault? child (command argv cwd capture seconds) = none := by
  have hlimit : ((limitOf seconds).bind Value.number?).bind (fun n => n.waitFault? capture) =
      none := by
    cases hn : seconds.number? with
    | none => simp [limitOf, limit?, hn, Except.toOption]
    | some n =>
        rw [limitOf_eq hn]
        split
        · rw [Option.bind_some, hn, Option.bind_some, h n hn]
        · rfl
  unfold waitFault?
  split
  · rw [show (command argv cwd capture seconds).timeout = limitOf seconds from rfl,
      show (command argv cwd capture seconds).capture = capture from rfl, hlimit]
    rfl
  · rfl

/-! ## Running without a context -/

/-- What is still needed for a result once the system has taken the command. -/
theorem faultOf?_eq_none_iff (hargv : c.argv ≠ []) :
    faultOf? (w.children before c) c seconds (w.endingOf before c) = none ↔
      (w.Starts before c → w.Waits before c) ∧
      (w.Starts before c → w.Exceeds before c → seconds.isWritable = true) := by
  rcases w.endingOf_cases before c with
    ⟨hstarts, fault, thing, hending⟩ | ⟨hstarts, hexceeds, hending⟩ | ⟨hstarts, hexceeds, hending⟩
  · simp [hending, faultOf?, hargv, hstarts]
  · simp [hending, faultOf?, hstarts, hexceeds, World.Waits]
  · simp [hending, faultOf?, hstarts, hexceeds, World.Waits]

/-- What a command comes to if it takes some milliseconds. -/
def resultAfter (w : World) (argv : List Text) (cwd : Path) (capture : Bool) (seconds : Value)
    (m : Machine) (millis : Int) : Result :=
  (w.endingOf m.commands (command argv cwd capture seconds)).result
    (command argv cwd capture seconds) seconds millis

/-- Why a command has no result, whatever the time is that it takes. -/
def lossOf? (w : World) (before : List Command) (c : Command) (seconds : Value) : Option Fault :=
  refusal? (w.children before c) c <|>
    faultOf? (w.children before c) c seconds (w.endingOf before c)

theorem lossOf?_eq_none_iff (hargv : c.argv ≠ []) :
    lossOf? w before c seconds = none ↔ w.Takes before c ∧
      (w.Starts before c → w.Waits before c) ∧
      (w.Starts before c → w.Exceeds before c → seconds.isWritable = true) := by
  rw [lossOf?, Option.orElse_eq_orElse, Option.orElse_eq_or, Option.or_eq_none_iff,
    faultOf?_eq_none_iff hargv, World.Takes]

/-- Where the system refuses a command, that is why it has no result. -/
theorem lossOf?_of_refusal {fault : Fault}
    (h : refusal? (w.children before c) c = some fault) :
    lossOf? w before c seconds = some fault := by
  rw [lossOf?, h]
  rfl

theorem fst_execute (w : World) (argv : List Text) (cwd : Path) (capture : Bool) (m : Machine)
    (hn : seconds.number? = some n) :
    (m.execute w (argv.map .text) cwd capture seconds).1 =
      match lossOf? w m.commands (command argv cwd capture seconds) seconds with
      | some fault => .error fault
      | none => match Number.durationMillis m.now m.tick.now with
        | .error fault => .error (.duration fault)
        | .ok millis => .ok (resultAfter w argv cwd capture seconds m millis) := by
  -- The command is added to the machine, which leaves the clock as it is.
  have hnow (commands : List Command) : ({ m.tick with commands } : Machine).now = m.tick.now := rfl
  simp only [execute, limit?_eq_ok hn, tick_commands, hnow, World.endingOf, command, resultAfter,
    lossOf?]
  generalize (refusal? _ _ <|> faultOf? _ _ _ _ : Option Fault) = fault?
  cases fault? with
  | some fault => rfl
  | none => cases Number.durationMillis m.now m.tick.now <;> rfl

theorem execute_ok_iff (w : World) (cwd : Path) (capture : Bool) (m : Machine) (r : Result)
    (hargv : argv ≠ []) (hn : seconds.number? = some n) :
    (∃ m', m.execute w (argv.map .text) cwd capture seconds = (.ok r, m')) ↔
      (w.Takes m.commands (command argv cwd capture seconds) ∧
        (w.Starts m.commands (command argv cwd capture seconds) →
          w.Waits m.commands (command argv cwd capture seconds)) ∧
        (w.Starts m.commands (command argv cwd capture seconds) →
          w.Exceeds m.commands (command argv cwd capture seconds) →
          seconds.isWritable = true)) ∧
      ∃ millis, Number.durationMillis m.now m.tick.now = .ok millis ∧
        r = resultAfter w argv cwd capture seconds m millis := by
  have hresult : (∃ m', m.execute w (argv.map .text) cwd capture seconds = (.ok r, m')) ↔
      (m.execute w (argv.map .text) cwd capture seconds).1 = .ok r := by
    constructor
    · rintro ⟨m', hexecute⟩
      rw [hexecute]
    · intro hfst
      exact ⟨_, Prod.ext hfst rfl⟩
  have hwords : (command argv cwd capture seconds).argv ≠ [] := by
    simpa [command] using hargv
  rw [hresult, fst_execute w argv cwd capture m hn, ← lossOf?_eq_none_iff hwords]
  cases lossOf? w m.commands (command argv cwd capture seconds) seconds with
  | some fault => simp
  | none =>
      cases Number.durationMillis m.now m.tick.now with
      | error fault => simp
      | ok millis => simp [@eq_comm _ r]

/-! ## Running with a context -/

theorem report_ok_iff : (∃ m', m.report ctx argv cwd capture r = (.ok r', m')) ↔
    r' = r ∧ ((runEvent argv cwd r).isShown ctx = true →
      (Number.int r.millis).isWritable = true) := by
  simp only [report]
  cases (runEvent argv cwd r).isShown ctx <;> cases (Number.int r.millis).isWritable <;>
    simp [@eq_comm _ r']

theorem run_ok_iff : (∃ m', m.run w ctx argv cwd capture seconds = (.ok r, m')) ↔
    (∃ m', m.execute w (argv.map .text) cwd capture seconds = (.ok r, m')) ∧
      ((runEvent argv cwd r).isShown ctx = true → (Number.int r.millis).isWritable = true) := by
  unfold run
  rcases m.execute w (argv.map .text) cwd capture seconds with ⟨fault | r₁, m₁⟩
  · simp
  · simp only [report_ok_iff]
    constructor
    · rintro ⟨rfl, hlogged⟩
      exact ⟨⟨m₁, rfl⟩, hlogged⟩
    · rintro ⟨⟨m', hexecute⟩, hlogged⟩
      cases hexecute
      exact ⟨rfl, hlogged⟩

/-- Runs a command, and logs how it ended if there is a context. -/
def runWith (w : World) (ctx? : Option Context) (argv : List Text) (cwd : Path) (capture : Bool)
    (seconds : Value) (m : Machine) : Except Fault Result × Machine :=
  match ctx? with
  | none => m.execute w (argv.map .text) cwd capture seconds
  | some ctx => m.run w ctx argv cwd capture seconds

/-- A command has a result. -/
structure Returns (w : World) (ctx? : Option Context) (argv : List Text) (cwd : Path)
    (capture : Bool) (seconds : Value) (m : Machine) (r : Result) : Prop where
  /-- The system takes the words of the command and its directory. -/
  taken : w.Takes m.commands (command argv cwd capture seconds)
  /-- The system can wait for a child that is started. -/
  waits : w.Starts m.commands (command argv cwd capture seconds) →
    w.Waits m.commands (command argv cwd capture seconds)
  /-- The time it takes is a number of milliseconds, and the result is that of its child. -/
  measured : ∃ millis, Number.durationMillis m.now m.tick.now = .ok millis ∧
    r = resultAfter w argv cwd capture seconds m millis
  /-- A limit that stops the child can be written. -/
  limit : w.Starts m.commands (command argv cwd capture seconds) →
    w.Exceeds m.commands (command argv cwd capture seconds) → seconds.isWritable = true
  /-- A time that is shown in the log can be written. -/
  logged : ∀ ctx, ctx? = some ctx → (runEvent argv cwd r).isShown ctx = true →
    (Number.int r.millis).isWritable = true

/-- When a command has a result, and which one. -/
theorem runWith_ok_iff (hargv : argv ≠ []) (hn : seconds.number? = some n) :
    (∃ m', m.runWith w ctx? argv cwd capture seconds = (.ok r, m')) ↔
      m.Returns w ctx? argv cwd capture seconds r := by
  have hexecute := execute_ok_iff w cwd capture m r hargv hn
  cases ctx? with
  | none =>
      rw [runWith, hexecute]
      constructor
      · rintro ⟨⟨htaken, hwaits, hlimit⟩, hmeasured⟩
        exact ⟨htaken, hwaits, hmeasured, hlimit, nofun⟩
      · intro h
        exact ⟨⟨h.taken, h.waits, h.limit⟩, h.measured⟩
  | some ctx =>
      rw [runWith, run_ok_iff, hexecute]
      constructor
      · rintro ⟨⟨⟨htaken, hwaits, hlimit⟩, hmeasured⟩, hlogged⟩
        refine ⟨htaken, hwaits, hmeasured, hlimit, ?_⟩
        rintro _ ⟨⟩
        exact hlogged
      · intro h
        exact ⟨⟨⟨h.taken, h.waits, h.limit⟩, h.measured⟩, h.logged ctx rfl⟩

/-- A command has no result if the system refuses it, and what it says is the fault. -/
theorem runWith_of_loss {fault : Fault} (ctx? : Option Context) (hn : seconds.number? = some n)
    (h : lossOf? w m.commands (command argv cwd capture seconds) seconds = some fault) :
    (m.runWith w ctx? argv cwd capture seconds).1 = .error fault := by
  have hexecute := fst_execute w argv cwd capture m hn
  rw [h] at hexecute
  cases ctx? with
  | none => exact hexecute
  | some ctx =>
      simp only [runWith, run]
      rcases hrun : m.execute w (argv.map .text) cwd capture seconds with ⟨other | r, m₁⟩
      · rw [hrun] at hexecute
        exact hexecute
      · rw [hrun] at hexecute
        cases hexecute

/-- A result tells how the child of the command ended. -/
theorem Returns.told (h : m.Returns w ctx? argv cwd capture seconds r) :
    w.Told m.commands (command argv cwd capture seconds) seconds r := by
  obtain ⟨millis, -, rfl⟩ := h.measured
  exact w.told_result m.commands _ seconds millis

end Bindery.Machine
