import Bindery.Config.Schema
import Bindery.Proofs.Config.Pattern

/-!
# Rules as subschemas

The rule of a key is a subschema, a row of keywords (`Rule.toJson_eq`).  Each keyword restricts
the values on its own: a type restricts all of them, a pattern restricts texts and a bound
restricts numbers.

A value is admitted if no keyword forbids it (`Rule.problem?_eq_none_iff`).  Otherwise the first
keyword that forbids it says what is wrong (`Rule.problem?_eq_some_iff`).
-/

namespace Bindery

/-- A keyword of a subschema. -/
inductive Keyword where
  /-- The value is of a kind. -/
  | type (k : Rule.Kind)
  /-- A text has at least one character. -/
  | minLength
  /-- The expression of a pattern is found in a text. -/
  | pattern (p : Pattern)
  /-- A number is not below 0. -/
  | minimum

namespace Rule.Kind

/-- The value is of the kind. -/
def Has : Kind → Value → Prop
  | text, v => ∃ s, v = .text s
  | whole, v => ∃ n : Number, v = .number n ∧ n.isWhole = true
  | mapping, v => ∃ entries, v = .mapping entries

end Rule.Kind

namespace Keyword

/-- The keyword as a member of a JSON schema. -/
def member : Keyword → Text × Json
  | type k => ("type", .text k.name)
  | minLength => ("minLength", .int 1)
  | pattern p => ("pattern", .text p.text)
  | minimum => ("minimum", .int 0)

/-- The keyword forbids a value, for a problem with it. -/
inductive Forbids : Keyword → Value → Rule.Problem → Prop where
  | type {k : Rule.Kind} {v : Value} : ¬k.Has v → Forbids (.type k) v (.wrongKind v k)
  | minLength : Forbids .minLength (.text []) .empty
  | pattern {p : Pattern} {s : Text} : ¬p.expression.Found s →
      Forbids (.pattern p) (.text s) (.mismatch s p)
  | minimum {n : Number} : n.isNegative = true → Forbids .minimum (.number n) (.negative n)

/-- The keyword does not forbid a value. -/
def Allows (w : Keyword) (v : Value) : Prop := ∀ problem, ¬w.Forbids v problem

/-- The problem with a value is the one of the first keyword that forbids it. -/
inductive FirstProblem (v : Value) : List Keyword → Rule.Problem → Prop where
  | here {w : Keyword} {ws : List Keyword} {problem : Rule.Problem} : w.Forbids v problem →
      FirstProblem v (w :: ws) problem
  | there {w : Keyword} {ws : List Keyword} {problem : Rule.Problem} : w.Allows v →
      FirstProblem v ws problem → FirstProblem v (w :: ws) problem

variable {k : Rule.Kind} {p : Pattern} {s : Text} {n : Number} {v : Value}
  {problem : Rule.Problem} {w : Keyword} {ws : List Keyword}

/-! ## Single keywords -/

theorem forbids_type_iff :
    (type k).Forbids v problem ↔ ¬k.Has v ∧ problem = .wrongKind v k := by
  constructor
  · intro h
    cases h with
    | type hnot => exact ⟨hnot, rfl⟩
  · rintro ⟨h, rfl⟩
    exact .type h

theorem forbids_minLength_iff :
    minLength.Forbids (.text s) problem ↔ s = [] ∧ problem = .empty := by
  constructor
  · rintro ⟨⟩
    exact ⟨rfl, rfl⟩
  · rintro ⟨rfl, rfl⟩
    exact .minLength

theorem forbids_pattern_iff :
    (pattern p).Forbids (.text s) problem ↔ ¬p.accepts s = true ∧ problem = .mismatch s p := by
  rw [p.accepts_iff_found]
  constructor
  · intro h
    cases h with
    | pattern hnot => exact ⟨hnot, rfl⟩
  · rintro ⟨h, rfl⟩
    exact .pattern h

theorem forbids_minimum_iff :
    minimum.Forbids (.number n) problem ↔ n.isNegative = true ∧ problem = .negative n := by
  constructor
  · intro h
    cases h with
    | minimum hnegative => exact ⟨hnegative, rfl⟩
  · rintro ⟨h, rfl⟩
    exact .minimum h

theorem allows_type_iff : (type k).Allows v ↔ k.Has v := by
  simp [Allows, forbids_type_iff]

/-! ## Rows of keywords -/

theorem not_firstProblem_nil : ¬FirstProblem v [] problem := nofun

theorem firstProblem_cons_iff : FirstProblem v (w :: ws) problem ↔
    w.Forbids v problem ∨ w.Allows v ∧ FirstProblem v ws problem := by
  constructor
  · intro h
    cases h with
    | here h => exact .inl h
    | there hallows h => exact .inr ⟨hallows, h⟩
  · rintro (h | ⟨hallows, h⟩)
    · exact .here h
    · exact .there hallows h

/-- A value has a first problem unless all keywords allow it. -/
theorem exists_firstProblem_iff :
    (∃ problem, FirstProblem v ws problem) ↔ ¬∀ w ∈ ws, w.Allows v := by
  induction ws with
  | nil => simp [not_firstProblem_nil]
  | cons w ws ih =>
      simp only [firstProblem_cons_iff, exists_or, exists_and_left, ih, List.forall_mem_cons]
      by_cases h : w.Allows v
      · have hnot : ¬∃ problem, w.Forbids v problem := not_exists.2 h
        simp [h, hnot]
      · have hforbids : ∃ problem, w.Forbids v problem := not_forall_not.1 h
        simp [h, hforbids]

end Keyword

namespace Rule

open Keyword (FirstProblem)

variable {r : Rule} {v : Value} {problem : Problem}

/-- The keyword of a rule for what a value of its kind holds. -/
def content : Rule → Keyword
  | nonEmpty => .minLength
  | matching p => .pattern p
  | natural => .minimum

/-- The keywords of a rule. -/
def keywords (r : Rule) : List Keyword := [.type r.kind, r.content]

theorem toJson_eq (r : Rule) : r.toJson = .object (r.keywords.map Keyword.member) := by
  cases r <;> rfl

/-- The rule admits a value: none of its keywords forbids it. -/
def Admits (r : Rule) (v : Value) : Prop := ∀ w ∈ r.keywords, w.Allows v

theorem problem?_of_not_has (h : ¬r.kind.Has v) : r.problem? v = some (.wrongKind v r.kind) := by
  cases r <;> cases v <;> simp_all [problem?, kind, Kind.Has]

theorem problem?_eq_some_iff_of_has (h : r.kind.Has v) :
    r.problem? v = some problem ↔ r.content.Forbids v problem := by
  cases r with
  | nonEmpty =>
      obtain ⟨s, rfl⟩ := h
      simp [problem?, content, Keyword.forbids_minLength_iff, @eq_comm _ problem]
  | matching p =>
      obtain ⟨s, rfl⟩ := h
      simp [problem?, content, Keyword.forbids_pattern_iff, @eq_comm _ problem]
  | natural =>
      obtain ⟨n, rfl, hwhole⟩ := h
      simp [problem?, content, hwhole, Keyword.forbids_minimum_iff, @eq_comm _ problem]

/-- What is wrong with a value is what the first keyword says that forbids it. -/
theorem problem?_eq_some_iff :
    r.problem? v = some problem ↔ FirstProblem v r.keywords problem := by
  simp only [keywords, Keyword.firstProblem_cons_iff, Keyword.forbids_type_iff,
    Keyword.allows_type_iff, Keyword.not_firstProblem_nil, and_false, or_false]
  by_cases h : r.kind.Has v
  · simp [h, problem?_eq_some_iff_of_has h]
  · simp [h, problem?_of_not_has h, eq_comm]

/-- Nothing is wrong with the values that the rule admits. -/
theorem problem?_eq_none_iff : r.problem? v = none ↔ r.Admits v := by
  rw [Admits, ← not_iff_not, ← Keyword.exists_firstProblem_iff, ← ne_eq, Option.ne_none_iff_exists']
  simp only [problem?_eq_some_iff]

end Rule
end Bindery
