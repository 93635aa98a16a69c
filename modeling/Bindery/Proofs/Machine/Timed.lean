import Bindery.Proofs.Machine.Answer
import Bindery.Proofs.Number.Bits
import Mathlib.Data.List.Basic

/-!
# The time that commands take

The time of a command is measured between two readings of the clock and logged in whole
milliseconds, which have to be short enough to be written.  Clocks whose readings are binary
numbers keep to that (`isTimed_of_binary`), as a binary number is below 2 to the power of 1024.

If all times can be written, a command that has a result is reported, whatever the settings of
the log are (`report_of_isWritable`).
-/

namespace Bindery

/-! ## Binary numbers -/

namespace Parts

theorem natAbs_signed (negative : Bool) (n : Nat) : (signed negative n).natAbs = n := by
  cases negative <;> simp [signed]

/-- The integer next to a binary number has at most 1024 bits. -/
theorem natAbs_truncate? {x : Float} {n : Int} {bits : Nat} (h : (ofFloat x).truncate? = some n)
    (hbits : 1024 ≤ bits) : n.natAbs < Nat.pow 2 bits := by
  have hpow (i j : Nat) (hij : i ≤ j) : Nat.pow 2 i ≤ Nat.pow 2 j :=
    Nat.pow_le_pow_right (by decide) hij
  cases hparts : ofFloat x with
  | infinite | nan =>
      rw [hparts] at h
      cases h
  | finite negative m e =>
      obtain ⟨hc, -⟩ := isCanonical_of_ofFloat hparts
      have hm : m < Nat.pow 2 53 := hc.short
      have he : e ≤ 971 := hc.most
      rw [hparts] at h
      cases e with
      | ofNat e =>
          obtain rfl := Option.some.inj h
          have hexponent : e ≤ 971 := Int.ofNat_le.1 he
          rw [natAbs_signed]
          calc m * Nat.pow 2 e < Nat.pow 2 53 * Nat.pow 2 e :=
                Nat.mul_lt_mul_of_pos_right hm (Nat.two_pow_pos e)
            _ = Nat.pow 2 (53 + e) := (Nat.pow_add 2 53 e).symm
            _ ≤ Nat.pow 2 bits := hpow (53 + e) bits (by omega)
      | negSucc e =>
          obtain rfl := Option.some.inj h
          rw [natAbs_signed]
          calc m / Nat.pow 2 (e + 1) ≤ m := Nat.div_le_self _ _
            _ < Nat.pow 2 53 := hm
            _ ≤ Nat.pow 2 bits := hpow 53 bits (by omega)

end Parts

namespace Number

/-- An integer of no more bits than the most digits is short enough. -/
theorem isWritable_of_lt {n : Int} {bits : Nat} (h : n.natAbs < Nat.pow 2 bits)
    (hbits : bits ≤ mostDigits) : (Number.int n).isWritable = true := by
  have hpow (digits : Nat) (hdigits : bits ≤ digits) : Nat.pow 2 bits ≤ Nat.pow 10 digits :=
    calc Nat.pow 2 bits ≤ Nat.pow 10 bits := Nat.pow_le_pow_left (by decide) bits
      _ ≤ Nat.pow 10 digits := Nat.pow_le_pow_right (by decide) hdigits
  rw [isWritable, decide_eq_true_eq]
  exact Nat.lt_of_lt_of_le h (hpow mostDigits hbits)

/-- A binary number without its fraction is short enough. -/
theorem isWritable_of_truncate {x : Float} {n : Int} (h : truncate x = .ok n) :
    (Number.int n).isWritable = true := by
  unfold truncate at h
  cases hparts : Parts.ofFloat x with
  | infinite | nan =>
      rw [hparts] at h
      cases h
  | finite negative m e =>
      have hsome : ∃ k, (Parts.ofFloat x).truncate? = some k := by
        rw [hparts]
        cases e <;> exact ⟨_, rfl⟩
      obtain ⟨k, hk⟩ := hsome
      have hn : (Except.ok ((Parts.ofFloat x).truncate?.getD 0) : Except Fault Int) = .ok n := by
        rw [hparts] at h ⊢
        exact h
      obtain rfl : k = n := by
        rw [hk] at hn
        exact Except.ok.inj hn
      exact isWritable_of_lt (Parts.natAbs_truncate? hk (by decide)) (Nat.le_refl mostDigits)

end Number

/-! ## Clocks -/

namespace Machine

/-- The time between two readings of a clock can be written, if it can be measured. -/
def IsTimed (readings : List Number) : Prop :=
  ∀ started ∈ readings, ∀ ended ∈ readings, ∀ millis,
    Number.durationMillis started ended = .ok millis → (Number.int millis).isWritable = true

theorem IsTimed.mono {readings more : List Number} (h : IsTimed more) (hsub : readings ⊆ more) :
    IsTimed readings := fun started hs ended he => h started (hsub hs) ended (hsub he)

/-- A clock of binary numbers has times that can be written. -/
theorem isTimed_of_binary {readings : List Number}
    (h : ∀ reading ∈ readings, ∃ x, reading = .float x) : IsTimed readings := by
  intro started hs ended he millis hmillis
  obtain ⟨x, rfl⟩ := h started hs
  obtain ⟨y, rfl⟩ := h ended he
  exact Number.isWritable_of_truncate hmillis

variable {w : World} {words : List Value} {argv : List Text} {cwd : Path} {capture : Bool}
  {seconds : Value} {m m' : Machine} {r : Result}

/-- The time of a result is measured between two readings. -/
theorem durationMillis_of_execute (h : m.execute w words cwd capture seconds = (.ok r, m')) :
    ∃ started ∈ m.readings, ∃ ended ∈ m.readings,
      Number.durationMillis started ended = .ok r.millis := by
  unfold execute at h
  refine ⟨m.now, m.now_mem_readings, m.tick.now, m.tick_readings_subset m.tick.now_mem_readings, ?_⟩
  cases hlimit : limit? seconds with
  | error fault =>
      rw [hlimit] at h
      cases h
  | ok limit =>
      rw [hlimit] at h
      dsimp only at h
      split at h
      · cases h
      · split at h
        · cases h
        · next millis hmillis =>
            cases h
            rw [Ending.result_millis]
            exact hmillis

theorem IsTimed.isWritable (h : IsTimed m.readings)
    (hexecute : m.execute w words cwd capture seconds = (.ok r, m')) :
    (Number.int r.millis).isWritable = true := by
  obtain ⟨started, hs, ended, he, hmillis⟩ := durationMillis_of_execute hexecute
  exact h started hs ended he r.millis hmillis

/-- A result whose time can be written is reported, whatever the settings of the log are. -/
theorem report_of_isWritable (h : (Number.int r.millis).isWritable = true) (ctx : Context)
    (argv : List Text) (cwd : Path) (capture : Bool) (m : Machine) :
    m.report ctx argv cwd capture r = (.ok r,
      if capture && r.output ≠ [] then (m.logged (runEvent argv cwd r)).logged (outputEvent argv r)
      else m.logged (runEvent argv cwd r)) := by
  simp only [report, h, Bool.not_true, Bool.and_false, Bool.false_eq_true, if_false]

/-- If times can be written, the settings of the log have no part in running a command. -/
theorem IsTimed.runWords_eq (h : IsTimed m.readings) (w : World) (ctx ctx' : Context)
    (words : List Value) (cwd : Path) (capture : Bool) (seconds : Value) :
    m.runWords w ctx' words cwd capture seconds = m.runWords w ctx words cwd capture seconds := by
  unfold runWords
  cases Value.texts? words with
  | none => rfl
  | some argv =>
      dsimp only [run]
      rcases hexecute : m.execute w (argv.map .text) cwd capture seconds with ⟨fault | r, m₁⟩
      · rfl
      · have hwritable := h.isWritable hexecute
        dsimp only
        rw [report_of_isWritable hwritable, report_of_isWritable hwritable]

end Machine
end Bindery
