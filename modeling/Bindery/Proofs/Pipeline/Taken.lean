import Bindery.Proofs.Pipeline.Logging

/-!
# Commands that the system takes

The system takes a command of a process only if it takes all words of it and the name of its
directory.  So where all children are processes, it takes what stands in the history of a live
pipeline (`Shell.runBook_taken`).

A name that the system takes has no half of a surrogate pair in front of its other half, and so
it is settled (`Text.isSettled_of_pathFault?`).
-/

namespace Bindery

/-! ## Names -/

namespace Text

/-- The first half of a pair has no bytes. -/
theorem arePaired_eq_false {high : Fin 0x800} (h : (bytesOf? (.half high)).isSome = true)
    (low : Fin 0x800) : arePaired high low = false := by
  have hindex : 0x480 ≤ high.val := by
    by_contra hlow
    simp [bytesOf?, hlow] at h
  have hhigh : Json.isHigh (CodePoint.half high).code = false := by
    have hcode : ¬0xD800 + high.val ≤ 0xDBFF := by omega
    simp [Json.isHigh, CodePoint.code, hcode]
  rw [arePaired, hhigh, Bool.false_and]

theorem isSettled_of_bytes {s : Text} (h : ∀ x ∈ s, (bytesOf? x).isSome = true) :
    s.IsSettled := by
  unfold IsSettled
  induction s using joined.induct with
  | case1 high low s hpair =>
      rw [arePaired_eq_false (h _ (.head _))] at hpair
      cases hpair
  | case2 high low s hpair ih => rw [joined, if_neg hpair, ih fun x hx => h x (.tail _ hx)]
  | case3 x s hne ih => rw [joined, ih fun x hx => h x (.tail _ hx)]; exact hne
  | case4 => rfl

theorem isSettled_of_pathFault? {s : Text} (h : FileSystem.pathFault? s = none) :
    s.IsSettled :=
  isSettled_of_bytes fun x hx => (FileSystem.pathFault?_eq_none_iff.1 h x hx).1

end Text

/-! ## Commands -/

namespace Machine

variable {w : World} {ctx : Context} {argv : List Value} {cwd : Path} {capture : Bool}
  {seconds : Value} {m : Machine} {r : Result}

/-- A command with a result was not refused. -/
theorem refusal?_of_execute (h : (m.execute w argv cwd capture seconds).1 = .ok r) :
    ∃ limit, refusal? (w.children m.commands ⟨argv, cwd, capture, limit⟩)
      ⟨argv, cwd, capture, limit⟩ = none := by
  unfold execute at h
  cases hlimit : limit? seconds with
  | error fault =>
      rw [hlimit] at h
      cases h
  | ok limit =>
      refine ⟨limit, ?_⟩
      rw [hlimit] at h
      dsimp only at h
      split at h
      · cases h
      · next hnone =>
        rw [Option.orElse_eq_orElse, Option.orElse_eq_or, Option.or_eq_none_iff] at hnone
        simpa using hnone.1

/-- The system takes the words and the directory of a process that it does not refuse. -/
theorem taken_of_refusal? {child : Child} {c : Command} (h : refusal? child c = none)
    (hprocess : child.isProcess = true) :
    (∀ v ∈ c.argv, wordFault? v = none) ∧ FileSystem.pathFault? c.cwd.text = none := by
  rw [refusal?, Option.orElse_eq_orElse, Option.orElse_eq_or, Option.or_eq_none_iff,
    if_pos hprocess, wordsFault?] at h
  refine ⟨?_, by simpa using h.2⟩
  have hwords := h.1
  split at hwords
  · cases hwords
  · simpa using hwords

end Machine

/-- The system takes all words of a command that ended and the name of its directory. -/
structure Executed.IsTaken (e : Executed) : Prop where
  argv : FileSystem.AllTaken e.argv
  cwd : FileSystem.pathFault? e.cwd.text = none

namespace Shell

variable {sh : Shell} {readings : List Number} {before : List Command} {d : Deed} {r : Result}

/-- The system takes a deed of a process that has a result. -/
theorem Gives.isTaken (h : sh.Gives readings before d) (live : sh.context.dryRun = false)
    (hprocess : ∀ before c, (sh.world.children before c).isProcess = true)
    (hanswer : d.answer = .ok r) (code millis : Int) :
    (Executed.mk d.argv d.cwd code millis).IsTaken := by
  obtain ⟨m, -, -, hgives⟩ := h
  rw [hanswer, respond, if_neg (by rw [live]; decide), Machine.runWords] at hgives
  cases hwords : Value.texts? d.words with
  | none =>
      simp only [hwords, Machine.runUnnamed] at hgives
      rcases hexecute : m.execute sh.world d.words d.cwd d.capture sh.seconds with
          ⟨fault | r', m'⟩ <;>
        · rw [hexecute] at hgives
          cases hgives
  | some argv =>
      have hargv : d.argv = argv := by rw [Deed.argv, hwords, Option.getD_some]
      simp only [hwords, Machine.run] at hgives
      rcases hexecute : m.execute sh.world (argv.map .text) d.cwd d.capture sh.seconds with
        ⟨fault | r', m'⟩
      · rw [hexecute] at hgives
        cases hgives
      · obtain ⟨limit, hnone⟩ := Machine.refusal?_of_execute (congrArg Prod.fst hexecute)
        rw [hargv]
        obtain ⟨hwords, hcwd⟩ := Machine.taken_of_refusal? hnone (hprocess _ _)
        refine ⟨fun t ht => ?_, hcwd⟩
        exact Machine.wordFault?_text_eq_none_iff.1 (hwords _ (List.mem_map_of_mem ht))

/-- Where all children are processes, the system takes the history of a live pipeline. -/
theorem runBook_taken (live : sh.context.dryRun = false)
    (hprocess : ∀ before c, (sh.world.children before c).isProcess = true) (c : Settings)
    {s : Session} (hs : ∀ e ∈ s.history, e.IsTaken) :
    ∀ e ∈ ((sh.runBook c).run s).2.history, e.IsTaken := by
  obtain ⟨moves, hgains, -⟩ := sh.runBook_adds (fun _ h => h) c s
  intro e he
  rw [hgains.history] at he
  rcases List.mem_append.1 he with he | he
  · exact hs e he
  · obtain ⟨move, hmove, he⟩ := List.mem_flatMap.1 he
    cases move with
    | noted event => cases he
    | did d =>
        obtain ⟨before, hgives⟩ := hgains.gives.of_mem hmove
        cases hanswer : d.answer with
        | error fault =>
            rw [Move.entries, Deed.entries, hanswer] at he
            cases he
        | ok r =>
            rw [Move.entries, Deed.entries, hanswer, List.mem_singleton] at he
            exact he ▸ hgives.isTaken live hprocess hanswer _ _

end Shell
end Bindery
