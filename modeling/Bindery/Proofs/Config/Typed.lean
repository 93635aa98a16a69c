import Bindery.Proofs.Config.Exact
import Mathlib.Algebra.Order.Ring.Int

/-!
# Typed configurations

A configuration is typed if its texts have characters and its time limit has the value of a
natural number.  The rule for the limit takes a whole number whether it is written with a point
or not, so the limit is an integer unless a binary number is given (`IsTyped.integer`).  What is
read from the entries of a mapping is typed (`isTyped_of_ofEntries`), and so is what is loaded
(`load_typed`).
-/

namespace Bindery

/-! ## Whole numbers -/

namespace Parts

theorem signed_mul (negative : Bool) (m k : Nat) :
    signed negative (m * k) = signed negative m * (k : Int) := by
  cases negative <;> simp [signed]

/-- A number without a fraction has the order of an integer. -/
theorem exists_compareInt? {p : Parts} (h : p.isWhole = true) :
    ∃ k : Int, ∀ n, p.compareInt? n = some (compare k n) := by
  cases p with
  | infinite | nan => cases h
  | finite negative m e =>
      cases e with
      | ofNat e => exact ⟨signed negative (m * Nat.pow 2 e), fun n => rfl⟩
      | negSucc e =>
          have hdvd : Nat.pow 2 (e + 1) ∣ m := Nat.dvd_of_mod_eq_zero (eq_of_beq h)
          have hpos : (0 : Int) < (Nat.pow 2 (e + 1) : Nat) := by
            exact_mod_cast Nat.two_pow_pos (e + 1)
          refine ⟨signed negative (m / Nat.pow 2 (e + 1)), fun n => ?_⟩
          have hsigned : signed negative m =
              signed negative (m / Nat.pow 2 (e + 1)) * (Nat.pow 2 (e + 1) : Nat) := by
            rw [← signed_mul, Nat.div_mul_cancel hdvd]
          change some (compare (signed negative m) (n * (Nat.pow 2 (e + 1) : Nat))) = _
          rw [hsigned, ← cmp_eq_compare, ← cmp_eq_compare, cmp_mul_pos_right hpos]

end Parts

namespace Number

variable {x : Number} {k n : Int}

/-- A number has the value of an integer: it has the order of that with all integers. -/
def IsValue (x : Number) (k : Int) : Prop := ∀ n, x.compareInt? n = some (compare k n)

theorem isValue_int (m : Int) : (int m).IsValue m := fun _ => rfl

/-- A whole number has the value of an integer. -/
theorem exists_isValue (h : x.isWhole = true) : ∃ k, x.IsValue k := by
  cases x with
  | int m => exact ⟨m, isValue_int m⟩
  | float y => exact Parts.exists_compareInt? h

namespace IsValue

theorem same_int_iff (h : x.IsValue k) : x.same (.int n) = true ↔ k = n := by
  have hsame : x.same (.int n) = (x.compareInt? n == some .eq) := by cases x <;> rfl
  rw [hsame, h n, beq_iff_eq, Option.some.injEq, compare_eq_iff_eq]

theorem unique (h : x.IsValue k) (h' : x.IsValue n) : k = n :=
  h.same_int_iff.1 (h'.same_int_iff.2 rfl)

theorem isNegative_iff (h : x.IsValue k) : x.isNegative = true ↔ k < 0 := by
  rw [isNegative, h 0, beq_iff_eq, Option.some.injEq, compare_lt_iff_lt]

theorem isPositive_iff (h : x.IsValue k) : x.isPositive = true ↔ 0 < k := by
  rw [isPositive, h 0, beq_iff_eq, Option.some.injEq, compare_gt_iff_gt]

end IsValue

end Number

/-! ## Rules -/

theorem Pattern.ne_nil_of_accepts {p : Pattern} {s : Text} (h : p.accepts s = true) : s ≠ [] := by
  rintro rfl
  cases p <;> cases h

/-- A rule that asks for a text asks for characters in it. -/
theorem Rule.exists_text {rule : Rule} {v : Value} (hrule : rule ≠ .natural)
    (h : rule.problem? v = none) : ∃ s : Text, v = .text s ∧ s ≠ [] := by
  cases v with
  | text s =>
      refine ⟨s, rfl, ?_⟩
      cases rule with
      | natural => exact absurd rfl hrule
      | nonEmpty =>
          rintro rfl
          cases h
      | matching p =>
          refine Pattern.ne_nil_of_accepts (p := p) ?_
          by_contra hmismatch
          simp [problem?, hmismatch] at h
  | _ => cases rule <;> first | exact absurd rfl hrule | cases h

/-- A rule that asks for a natural number takes nothing but numbers with the value of one. -/
theorem Rule.exists_natural {v : Value} (h : Rule.natural.problem? v = none) :
    ∃ (x : Number) (n : Nat), v = .number x ∧ x.IsValue n := by
  cases v with
  | number x =>
      simp only [problem?] at h
      split at h
      case isTrue => cases h
      case isFalse hwhole =>
        split at h
        case isTrue => cases h
        case isFalse hnegative =>
          obtain ⟨k, hk⟩ := Number.exists_isValue (by simpa using hwhole)
          obtain ⟨n, rfl⟩ := Int.eq_ofNat_of_zero_le (not_lt.1 (mt hk.isNegative_iff.2 hnegative))
          exact ⟨x, n, rfl, hk⟩
  | _ => cases h

theorem Key.rule_ne_natural {k : Key} (h : k ≠ .timeoutSeconds) : k.rule ≠ .natural := by
  cases k <;> first | exact absurd rfl h | exact Rule.noConfusion

namespace Config

open Yaml (Document Atom NodeId)

variable {fs : FileSystem} {current : List Text} {root path : Path}
  {explicit fromEnvironment : Option Text} {bytes : List UInt8} {d : Document}
  {source : Option Path} {c : Config} {keys : List Value} {value? : Key → Option Value}

/-! ## Types -/

/-- A configuration has values of their types, by the values that are given for its keys. -/
structure IsTyped (value? : Key → Option Value) (c : Config) : Prop where
  /-- A value that is given is taken as it is, and the others are the defaults. -/
  given : ∀ k, c.get k = (value? k).getD (({} : Config).get k)
  /-- All but the time limit are texts, and none of them is empty. -/
  text : ∀ k, k ≠ .timeoutSeconds → ∃ s : Text, c.get k = .text s ∧ s ≠ []
  /-- The time limit has the value of a natural number. -/
  seconds : ∃ n : Nat, c.timeoutSeconds.same (.int n) = true
  /-- It is an integer if and only if no binary number is given for it. -/
  integer : (∃ n : Nat, c.timeoutSeconds = .int n) ↔
    ∀ x, value? .timeoutSeconds ≠ some (.number (.float x))

theorem IsSound.exists_isValue (h : c.IsSound) : ∃ n : Nat, c.timeoutSeconds.IsValue n := by
  obtain ⟨x, n, hx, hn⟩ := Rule.exists_natural (h .timeoutSeconds)
  cases hx
  exact ⟨n, hn⟩

/-- The time limit is an integer unless the mapping gives a binary number. -/
theorem IsSound.integer_iff (h : c.IsSound)
    (hgiven : c.get .timeoutSeconds =
      (value? .timeoutSeconds).getD (({} : Config).get .timeoutSeconds)) :
    (∃ n : Nat, c.timeoutSeconds = .int n) ↔
      ∀ x, value? .timeoutSeconds ≠ some (.number (.float x)) := by
  have hlimit : Value.number c.timeoutSeconds =
      (value? .timeoutSeconds).getD (.number (.int 0)) := hgiven
  constructor
  · rintro ⟨n, hn⟩ x hx
    rw [hn, hx] at hlimit
    cases hlimit
  · intro hfloat
    obtain ⟨n, hn⟩ := h.exists_isValue
    cases hc : c.timeoutSeconds with
    | int m =>
        rw [hc] at hn
        exact ⟨n, congrArg Number.int ((Number.isValue_int m).unique hn)⟩
    | float x =>
        rw [hc] at hlimit
        cases hv : value? .timeoutSeconds with
        | none =>
            rw [hv] at hlimit
            cases hlimit
        | some v =>
            rw [hv] at hlimit
            exact absurd (hlimit ▸ hv) (hfloat x)

/-- A sound configuration with the values of a mapping is typed. -/
theorem IsSound.isTyped (h : c.IsSound)
    (hgiven : ∀ k, c.get k = (value? k).getD (({} : Config).get k)) : IsTyped value? c := by
  obtain ⟨n, hn⟩ := h.exists_isValue
  exact ⟨hgiven, fun k hk => Rule.exists_text (Key.rule_ne_natural hk) (h k),
    ⟨n, hn.same_int_iff.2 rfl⟩, h.integer_iff (hgiven _)⟩

/-- What is read from the entries of a mapping is typed. -/
theorem isTyped_of_ofEntries (h : ofEntries keys value? = .ok c) : IsTyped value? c :=
  (isSound_of_ofEntries h).isTyped (get_of_ofEntries h)

/-! ## Loading -/

/-- The value that a document gives to a key, if it is a mapping. -/
def givenBy (d : Document) (k : Key) : Option Value :=
  match d.rootCell with
  | .mapping entries => given d entries k
  | _ => none

/-- The value that a file gives to a key, if it has a document. -/
def givenIn (bytes : List UInt8) (k : Key) : Option Value :=
  match documentIn bytes with
  | .ok (some d) => givenBy d k
  | _ => none

/-- The value that the file of a configuration gives to a key, if there is a file. -/
def givenFrom (fs : FileSystem) (current : List Text) (source : Option Path) (k : Key) :
    Option Value :=
  source.bind fun path => (fs.read current path).toOption.bind fun bytes => givenIn bytes k

theorem givenBy_of_mapping {entries : List (Atom × NodeId)} (h : d.rootCell = .mapping entries) :
    givenBy d = given d entries := by
  funext k
  simp only [givenBy, h]

theorem givenBy_of_null {node : Option NodeId} (h : d.rootCell = .leaf ⟨.null, node⟩) :
    givenBy d = fun _ => none := by
  funext k
  simp only [givenBy, h]

theorem givenIn_of_none (h : documentIn bytes = .ok none) : givenIn bytes = fun _ => none := by
  funext k
  simp only [givenIn, h]

theorem givenIn_of_some (h : documentIn bytes = .ok (some d)) : givenIn bytes = givenBy d := by
  funext k
  simp only [givenIn, h]

theorem givenFrom_of_read (h : fs.read current path = .ok bytes) :
    givenFrom fs current (some path) = givenIn bytes := by
  funext k
  simp only [givenFrom, h, Except.toOption, Option.bind_some]

theorem ofEntries_nil : ofEntries [] (fun _ => none) = .ok {} := rfl

theorem ofEntries_of_ofDocument (h : ofDocument path d = .ok c) :
    ∃ keys, ofEntries keys (givenBy d) = .ok c := by
  have hload := h
  unfold ofDocument at h
  split at h
  case h_1 entries hroot =>
    rw [ofDocument_mapping path hroot, ← givenBy_of_mapping hroot] at hload
    refine ⟨entries.map fun entry => entry.1.value, ?_⟩
    cases hentries : ofEntries (entries.map fun entry => entry.1.value) (givenBy d) with
    | error refusal =>
        rw [hentries] at hload
        cases hload
    | ok c' =>
        rw [hentries] at hload
        cases hload
        rfl
  case h_2 node hroot =>
    cases h
    exact ⟨[], givenBy_of_null hroot ▸ ofEntries_nil⟩
  case h_3 => cases h

theorem ofEntries_of_ofBytes (h : ofBytes path bytes = .ok c) :
    ∃ keys, ofEntries keys (givenIn bytes) = .ok c := by
  cases hdocument : documentIn bytes with
  | error e =>
      rw [ofBytes_of_error path hdocument] at h
      cases h
  | ok d? =>
      cases d? with
      | none =>
          rw [ofBytes_of_none path hdocument] at h
          cases h
          exact ⟨[], givenIn_of_none hdocument ▸ ofEntries_nil⟩
      | some d =>
          rw [ofBytes_of_some path hdocument] at h
          rw [givenIn_of_some hdocument]
          exact ofEntries_of_ofDocument h

/-- What is loaded is read from the values that its file gives. -/
theorem ofEntries_of_load (h : load fs current root explicit fromEnvironment = .ok (c, source)) :
    ∃ keys, ofEntries keys (givenFrom fs current source) = .ok c := by
  rcases load_eq_ok h with ⟨bytes, rfl, hread, hbytes⟩ | ⟨rfl, rfl⟩
  · rw [givenFrom_of_read hread]
    exact ofEntries_of_ofBytes hbytes
  · exact ⟨[], ofEntries_nil⟩

/-- What is loaded is typed. -/
theorem load_typed (h : load fs current root explicit fromEnvironment = .ok (c, source)) :
    IsTyped (givenFrom fs current source) c := by
  obtain ⟨keys, hentries⟩ := ofEntries_of_load h
  exact isTyped_of_ofEntries hentries

end Config
end Bindery
