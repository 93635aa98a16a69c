import Bindery.Proofs.Machine.Returns

/-!
# What a command leaves on the machine

A command is handed to the system unless its limit is no number, whatever comes of it, and
events are logged only for a command that has a result (`runWords_leaves`).  The clock only goes
on, so what is read from it later could be read before (`readings`).

A command has a result if its limit is a number, the system takes its words and its directory
and can wait for its child, the time between two readings can be measured and written, and the
limit can be written in case that the child is stopped (`exists_run_ok`).
-/

namespace Bindery

theorem Value.eq_map_text_of_texts? {words : List Value} {argv : List Text}
    (h : texts? words = some argv) : words = argv.map .text := by
  induction words generalizing argv with
  | nil =>
      cases h
      rfl
  | cons word words ih =>
      cases word with
      | text t =>
          simp only [texts?, List.mapM_cons, text?] at h
          cases hrest : texts? words with
          | none =>
              simp only [texts?] at hrest
              simp [hrest] at h
          | some rest =>
              have hwords : words = rest.map .text := ih hrest
              simp only [texts?] at hrest
              simp only [hrest, Option.pure_def, Option.bind_eq_bind, Option.bind_some,
                Option.some.injEq] at h
              rw [← h, hwords]
              rfl
      | _ => simp [texts?, text?] at h

namespace Machine

variable {w : World} {ctx : Context} {argv : List Text} {cwd : Path} {capture : Bool}
  {seconds : Value} {m : Machine}

/-! ## The clock -/

/-- All that may be read from the clock. -/
def readings (m : Machine) : List Number :=
  match m.clock with
  | [] => [.float 0.0]
  | reading :: rest => reading :: rest

theorem now_mem_readings (m : Machine) : m.now ∈ m.readings := by
  unfold now readings
  cases m.clock <;> exact .head _

theorem tick_readings_subset (m : Machine) : m.tick.readings ⊆ m.readings := by
  unfold tick
  split
  · next first next rest hclock =>
      simp only [readings, hclock]
      exact List.subset_cons_self first (next :: rest)
  · exact List.Subset.refl _

/-- The time between any two readings can be measured and written. -/
def IsMeasurable (readings : List Number) : Prop :=
  ∀ started ∈ readings, ∀ ended ∈ readings,
    ∃ millis, Number.durationMillis started ended = .ok millis ∧ (Number.int millis).isWritable

/-! ## What is left -/

/-- What is handed to the system for a command. -/
def startedFor (words : List Value) (cwd : Path) (capture : Bool) (seconds : Value) :
    List Command :=
  match limit? seconds with
  | .ok limit => [⟨words, cwd, capture, limit⟩]
  | .error _ => []

/-- What is logged for a command that comes to something. -/
def eventsFor (argv : List Text) (cwd : Path) (capture : Bool) :
    Except Fault Result → List Event
  | .ok r =>
      runEvent argv cwd r :: if capture && r.output ≠ [] then [outputEvent argv r] else []
  | .error _ => []

/-- What running leaves on the machine if these commands are handed to the system and these events
are logged. -/
structure Leaves (m : Machine) (commands : List Command) (events : List Event) (m' : Machine) :
    Prop where
  commands : m'.commands = m.commands ++ commands
  events : m'.events = m.events ++ events
  readings : m'.readings ⊆ m.readings

theorem execute_leaves (w : World) (words : List Value) (cwd : Path) (capture : Bool)
    (seconds : Value) (m : Machine) :
    m.Leaves (startedFor words cwd capture seconds) []
      (m.execute w words cwd capture seconds).2 := by
  have htick : m.tick.readings ⊆ m.readings := m.tick_readings_subset
  unfold execute startedFor
  cases limit? seconds with
  | error fault => exact ⟨by simp, by simp, htick⟩
  | ok limit =>
      dsimp only
      split
      · exact ⟨by simp, by simp, htick⟩
      · split
        · exact ⟨by simp, by simp, List.Subset.trans (tick_readings_subset _) htick⟩
        · exact ⟨by simp, by simp, List.Subset.trans (tick_readings_subset _) htick⟩

theorem report_leaves (ctx : Context) (argv : List Text) (cwd : Path) (capture : Bool)
    (r : Result) (m : Machine) :
    m.Leaves [] (eventsFor argv cwd capture (m.report ctx argv cwd capture r).1)
      (m.report ctx argv cwd capture r).2 := by
  have hall : m.readings ⊆ m.readings := List.Subset.refl _
  unfold report
  dsimp only
  split
  · exact ⟨by simp, by simp [eventsFor], hall⟩
  · cases hout : capture && r.output ≠ [] with
    | true =>
        simp only [if_true, eventsFor, hout]
        exact ⟨by simp, by simp [logged], hall⟩
    | false =>
        simp only [Bool.false_eq_true, if_false, eventsFor, hout]
        exact ⟨by simp, rfl, hall⟩

theorem run_leaves (w : World) (ctx : Context) (argv : List Text) (cwd : Path)
    (capture : Bool) (seconds : Value) (m : Machine) :
    m.Leaves (startedFor (argv.map .text) cwd capture seconds)
      (eventsFor argv cwd capture (m.run w ctx argv cwd capture seconds).1)
      (m.run w ctx argv cwd capture seconds).2 := by
  have hexecute := execute_leaves w (argv.map .text) cwd capture seconds m
  unfold run
  rcases hrun : m.execute w (argv.map .text) cwd capture seconds with ⟨fault | r, m₁⟩
  · rw [hrun] at hexecute
    exact hexecute
  · rw [hrun] at hexecute
    have hreport := report_leaves ctx argv cwd capture r m₁
    exact
      { commands := by rw [hreport.commands, hexecute.commands, List.append_nil]
        events := by rw [hreport.events, hexecute.events, List.append_nil]
        readings := List.Subset.trans hreport.readings hexecute.readings }

theorem runUnnamed_leaves (w : World) (words : List Value) (cwd : Path) (capture : Bool)
    (seconds : Value) (m : Machine) :
    m.Leaves (startedFor words cwd capture seconds) []
      (m.runUnnamed w words cwd capture seconds).2 := by
  have hexecute := execute_leaves w words cwd capture seconds m
  unfold runUnnamed
  rcases hrun : m.execute w words cwd capture seconds with ⟨_ | _, m₁⟩ <;>
    · rw [hrun] at hexecute
      exact hexecute

/-- What a command of any words leaves on the machine. -/
theorem runWords_leaves (w : World) (ctx : Context) (words : List Value) (cwd : Path)
    (capture : Bool) (seconds : Value) (m : Machine) :
    m.Leaves (startedFor words cwd capture seconds)
      (eventsFor ((Value.texts? words).getD []) cwd capture
        (m.runWords w ctx words cwd capture seconds).1)
      (m.runWords w ctx words cwd capture seconds).2 := by
  unfold runWords
  cases hwords : Value.texts? words with
  | some argv =>
      rw [Value.eq_map_text_of_texts? hwords]
      exact run_leaves w ctx argv cwd capture seconds m
  | none =>
      have hnone : eventsFor [] cwd capture (m.runUnnamed w words cwd capture seconds).1 = [] := by
        unfold runUnnamed
        rcases m.execute w words cwd capture seconds with ⟨_ | _, m₁⟩ <;> rfl
      simp only [Option.getD_none, hnone]
      exact runUnnamed_leaves w words cwd capture seconds m

/-! ## Having a result -/

/-- What a command of texts needs to have a result. -/
structure IsAnswered (w : World) (argv : List Text) (cwd : Path) (capture : Bool)
    (seconds : Value) (m : Machine) : Prop where
  /-- There is a program to name. -/
  named : argv ≠ []
  /-- The system takes the words and the directory. -/
  taken : w.Takes m.commands (command argv cwd capture seconds)
  /-- It can wait for a child that is started. -/
  waits : w.Starts m.commands (command argv cwd capture seconds) →
    w.Waits m.commands (command argv cwd capture seconds)
  /-- The limit is a number. -/
  limited : ∃ n, seconds.number? = some n
  /-- The time it takes can be measured and written. -/
  measurable : IsMeasurable m.readings
  /-- A child is stopped only by a limit that can be written. -/
  stopped : w.Starts m.commands (command argv cwd capture seconds) →
    w.Exceeds m.commands (command argv cwd capture seconds) → seconds.isWritable = true

theorem exists_execute_ok (h : IsAnswered w argv cwd capture seconds m) :
    ∃ r m', m.execute w (argv.map .text) cwd capture seconds = (.ok r, m') ∧
      (Number.int r.millis).isWritable := by
  obtain ⟨n, hn⟩ := h.limited
  obtain ⟨millis, hmillis, hwritable⟩ := h.measurable _ m.now_mem_readings _
    (m.tick_readings_subset m.tick.now_mem_readings)
  obtain ⟨m', hexecute⟩ := (execute_ok_iff w cwd capture m
    (resultAfter w argv cwd capture seconds m millis) h.named hn).2
      ⟨⟨h.taken, h.waits, h.stopped⟩, millis, hmillis, rfl⟩
  refine ⟨_, m', hexecute, ?_⟩
  unfold resultAfter
  cases w.endingOf m.commands (command argv cwd capture seconds) <;> exact hwritable

theorem exists_run_ok (ctx : Context) (h : IsAnswered w argv cwd capture seconds m) :
    ∃ r m', m.run w ctx argv cwd capture seconds = (.ok r, m') := by
  obtain ⟨r, m₁, hexecute, hwritable⟩ := exists_execute_ok h
  rw [run, hexecute]
  simp only [report, hwritable, Bool.not_true, Bool.and_false, Bool.false_eq_true, if_false]
  exact ⟨r, _, rfl⟩

end Machine
end Bindery
