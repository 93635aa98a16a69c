import Bindery.Failure
import Bindery.Proofs.Config.Exact
import Bindery.Proofs.Config.Keyword
import Bindery.Proofs.Json.Ordered

/-!
# The verdict on a mapping

A mapping whose keys are texts is accepted, rejected for one thing that is wrong with it, or left
without a report.  `verdict_exact` says which of these it is, and that the order of the entries
does not matter.

The names that are none of a key come first, all of them in order.  Then comes the key with the
greatest name whose value is not admitted, for the first problem with that value.  But all that
is wrong is put in words, so there is no report at all if one problem cannot be written.
-/

namespace Bindery.Config

open Keyword (FirstProblem)
open Text (sortOn InOrder)

/-! ## Verdicts -/

/-- What is said of a value that should be a configuration. -/
inductive Verdict where
  /-- It is one. -/
  | accepted (c : Config)
  /-- It is none, for a reason. -/
  | rejected (failure : Failure)
  /-- It is none, and the report about that cannot be written. -/
  | unreported
deriving DecidableEq

/-- The verdict on a value from a source. -/
def verdict (source : Text) (v : Value) : Verdict :=
  match ofValue v with
  | .ok c => .accepted c
  | .error (.violation violation) => .rejected (Fault.invalid source violation).failure
  | .error .unwritable => .unreported

/-- The rejection of a value from a source, at a place. -/
def rejection (source : Text) (place message : String) : Verdict :=
  .rejected { origin := .config, message :=
    source ++ ": " ++ ("invalid config at " ++ place ++ ": " ++ message : String) }

/-- The words for names that are none of a key. -/
def unexpectedMessage (names : List Text) : String :=
  "Additional properties are not allowed (" ++ ", ".intercalate (names.map Text.quoted) ++
    (if names.length = 1 then " was" else " were") ++ " unexpected)"

/-- Entries under texts as those of a mapping. -/
def ofNamed (entries : List (Text × Value)) : List (Value × Value) :=
  entries.map fun entry => (.text entry.1, entry.2)

/-- The mapping with some entries under texts. -/
def named (entries : List (Text × Value)) : Value := .mapping (ofNamed entries)

/-- All problems with the values of keys can be written. -/
def CanReport (entries : List (Text × Value)) : Prop :=
  ∀ (k : Key) (v : Value) (problem : Rule.Problem), ((k.name : Text), v) ∈ entries →
    FirstProblem v k.rule.keywords problem → problem.isWritable = true

/-- The name is one of a key. -/
def IsKnown (name : Text) : Prop := ∃ k : Key, name = k.name

/-- A verdict on a mapping is right. -/
structure IsJudged (source : Text) (entries : List (Text × Value)) (outcome : Verdict) : Prop where
  /-- A mapping is accepted if all names are known and all values are admitted. -/
  accepted : (∃ c, outcome = .accepted c) ↔
    ∀ entry ∈ entries, ∃ k : Key, entry.1 = k.name ∧ k.rule.Admits entry.2
  /-- There is no report if a problem cannot be written. -/
  unreported : outcome = .unreported ↔ ¬CanReport entries
  /-- Unknown names are rejected whatever the values are, all at once and in order. -/
  root : CanReport entries → (∃ entry ∈ entries, ¬IsKnown entry.1) → ∃ names : List Text,
    InOrder id names ∧ (∀ name, name ∈ names ↔ name ∈ entries.map Prod.fst ∧ ¬IsKnown name) ∧
      outcome = rejection source "<root>" (unexpectedMessage names)
  /-- Else the greatest name with a value that is not admitted is rejected. -/
  key : CanReport entries → (∀ entry ∈ entries, IsKnown entry.1) → (¬∃ c, outcome = .accepted c) →
    ∃ (k : Key) (v : Value) (problem : Rule.Problem), ((k.name : Text), v) ∈ entries ∧
      FirstProblem v k.rule.keywords problem ∧
      (∀ (l : Key) (w : Value), ((l.name : Text), w) ∈ entries →
        Text.before k.name l.name = true → l.rule.Admits w) ∧
      outcome = rejection source k.name problem.message
  /-- The order of the entries does not matter. -/
  reordered : ∀ entries', entries.Perm entries' → verdict source (named entries') = outcome

variable {entries : List (Text × Value)} {value? : Key → Option Value}

/-! ## Entries by name -/

/-- The value of a key among entries. -/
def valueOf (entries : List (Text × Value)) (k : Key) : Option Value :=
  Value.lookup k.name (ofNamed entries)

theorem lookup_eq_some_iff (h : (entries.map Prod.fst).Nodup) {name : Text} {v : Value} :
    Value.lookup name (ofNamed entries) = some v ↔ (name, v) ∈ entries := by
  induction entries with
  | nil => simp [ofNamed, Value.lookup]
  | cons entry entries ih =>
      obtain ⟨hentry, hentries⟩ := List.nodup_cons.1 h
      rw [ofNamed] at ih ⊢
      simp only [List.map_cons, Value.lookup, List.mem_cons, Prod.ext_iff]
      split
      case isTrue hname =>
        subst hname
        have hrest : (entry.1, v) ∉ entries := fun hv =>
          hentry (List.mem_map.2 ⟨(entry.1, v), hv, rfl⟩)
        simp [hrest, eq_comm]
      case isFalse hname =>
        simp [ih hentries, Ne.symm hname]

theorem valueOf_eq_some_iff (h : (entries.map Prod.fst).Nodup) {k : Key} {v : Value} :
    valueOf entries k = some v ↔ ((k.name : Text), v) ∈ entries :=
  lookup_eq_some_iff h

theorem valueOf_eq_of_perm {entries' : List (Text × Value)} (h : (entries.map Prod.fst).Nodup)
    (hperm : entries.Perm entries') : valueOf entries' = valueOf entries := by
  have h' : (entries'.map Prod.fst).Nodup := (hperm.map Prod.fst).nodup_iff.1 h
  funext k
  refine Option.ext fun v => ?_
  rw [valueOf_eq_some_iff h, valueOf_eq_some_iff h', hperm.mem_iff]

/-- The names of entries that are none of a key. -/
def unknownNames (entries : List (Text × Value)) : List Text :=
  (entries.map Prod.fst).filter fun name => !isKey (.text name)

theorem isKey_text_iff {name : Text} : isKey (.text name) = true ↔ IsKnown name := by
  constructor
  · intro h
    obtain ⟨k, hk⟩ := exists_key_of_isKey h
    exact ⟨k, Value.text.inj hk⟩
  · rintro ⟨k, rfl⟩
    exact isKey_name k

theorem mem_unknownNames {name : Text} :
    name ∈ unknownNames entries ↔ name ∈ entries.map Prod.fst ∧ ¬IsKnown name := by
  rw [unknownNames, List.mem_filter, ← isKey_text_iff]
  simp

theorem unknownNames_eq_nil_iff :
    unknownNames entries = [] ↔ ∀ entry ∈ entries, IsKnown entry.1 := by
  simp [List.eq_nil_iff_forall_not_mem, mem_unknownNames]

/-- Distinct names are put in order in one way. -/
theorem inOrder_unknownNames (h : (entries.map Prod.fst).Nodup) :
    InOrder id (sortOn id (unknownNames entries)) := by
  apply Text.sortOn_inOrder
  rw [List.map_id]
  exact h.filter _

theorem sortOn_unknownNames {entries' : List (Text × Value)} (h : (entries.map Prod.fst).Nodup)
    (hperm : entries.Perm entries') :
    sortOn id (unknownNames entries') = sortOn id (unknownNames entries) := by
  refine (Text.sortOn_eq_of_perm ?_ ((hperm.map Prod.fst).filter _)).symm
  rw [List.map_id]
  exact h.filter _

theorem message_unexpected (names : List Text) :
    (Rule.Problem.unexpected (names.map .text)).message = unexpectedMessage (sortOn id names) := by
  -- A text is plain as it stands, so the message has the names in their own order.
  have hsorted : sortOn Value.plain (names.map .text) = (sortOn id names).map .text :=
    Text.sortOn_map (f := Value.text) (fun _ => rfl) names
  have hlength : (sortOn id names).length = names.length := (Text.sortOn_perm id names).length_eq
  have hquoted : ((sortOn id names).map Value.text).map Value.literal =
      (sortOn id names).map Text.quoted := by
    rw [List.map_map]
    exact List.map_congr_left fun name _ => by simp [Value.literal, Value.leafLiteral]
  have hmessage : (Rule.Problem.unexpected (names.map .text)).message =
      "Additional properties are not allowed (" ++
        ", ".intercalate ((sortOn Value.plain (names.map .text)).map Value.literal) ++
        (if (names.map Value.text).length = 1 then " was" else " were") ++ " unexpected)" := rfl
  rw [hsorted, hquoted, List.length_map, ← hlength] at hmessage
  exact hmessage

theorem areWritable_texts (names : List Text) : Value.areWritable (names.map .text) = true := by
  induction names with
  | nil => rfl
  | cons name names ih => simp [Value.areWritable, Value.isWritable, ih]

/-! ## Violations -/

/-- What is wrong with the values of keys, the greatest key first. -/
def keyViolations (value? : Key → Option Value) : List Violation :=
  Key.fromGreatest.filterMap (violation? value?)

theorem violation?_eq_some_iff {k : Key} {violation : Violation} :
    violation? value? k = some violation ↔ ∃ v problem, value? k = some v ∧
      k.rule.problem? v = some problem ∧ violation = ⟨some k, problem⟩ := by
  unfold violation?
  cases value? k with
  | none => simp
  | some v => cases h : k.rule.problem? v <;> simp [h, eq_comm]

/-- The greatest key comes first. -/
theorem fromGreatest_pairwise :
    Key.fromGreatest.Pairwise fun k l : Key => Text.before l.name k.name = true := by
  rw [Key.fromGreatest, List.pairwise_reverse]
  apply Text.sortOn_inOrder
  decide

/-- The first of the violations is at the greatest key. -/
theorem exists_of_keyViolations_eq_cons {first : Violation} {others : List Violation}
    (h : keyViolations value? = first :: others) :
    ∃ (k : Key) (v : Value) (problem : Rule.Problem), value? k = some v ∧
      k.rule.problem? v = some problem ∧ first = ⟨some k, problem⟩ ∧
      ∀ (l : Key) (w : Value), value? l = some w → Text.before k.name l.name = true →
        l.rule.problem? w = none := by
  obtain ⟨greater, k, less, hkeys, hgreater, hk, -⟩ := List.filterMap_eq_cons_iff.1 h
  obtain ⟨v, problem, hv, hproblem, rfl⟩ := violation?_eq_some_iff.1 hk
  refine ⟨k, v, problem, hv, hproblem, rfl, fun l w hw hbefore => ?_⟩
  have hpairwise := fromGreatest_pairwise
  rw [hkeys] at hpairwise
  obtain ⟨-, hless, -⟩ := List.pairwise_append.1 hpairwise
  -- A greater key can only stand in front of the first violation, where there is none.
  have hl : l ∈ greater ++ k :: less := hkeys ▸ l.mem_fromGreatest
  rcases List.mem_append.1 hl with hl | hl
  · exact violation?_eq_none_iff.1 (hgreater l hl) w hw
  · rcases List.mem_cons.1 hl with rfl | hl
    · exact absurd hbefore (Text.not_before_of_before hbefore)
    · have hafter := (List.pairwise_cons.1 hless).1 l hl
      exact absurd hbefore (Text.not_before_of_before hafter)

theorem keyViolations_isWritable_iff (h : (entries.map Prod.fst).Nodup) :
    ((keyViolations (valueOf entries)).all fun v => v.problem.isWritable) = true ↔
      CanReport entries := by
  simp only [keyViolations, List.all_eq_true, List.mem_filterMap, Key.mem_fromGreatest, true_and,
    violation?_eq_some_iff, CanReport, ← Rule.problem?_eq_some_iff, ← valueOf_eq_some_iff h]
  constructor
  · intro hall k v problem hv hproblem
    exact hall _ ⟨k, v, problem, hv, hproblem, rfl⟩
  · rintro hall _ ⟨k, v, problem, hv, hproblem, rfl⟩
    exact hall k v problem hv hproblem

/-! ## Verdicts by what is unknown -/

/-- The keys of the mapping with some entries under texts. -/
def keysOf (entries : List (Text × Value)) : List Value := (ofNamed entries).map Prod.fst

theorem filter_not_isKey (entries : List (Text × Value)) :
    (keysOf entries).filter (fun key => !isKey key) = (unknownNames entries).map .text := by
  rw [keysOf, ofNamed, List.map_map, unknownNames, List.filter_map, List.filter_map, List.map_map]
  rfl

theorem rootViolation?_of_known (h : unknownNames entries = []) :
    rootViolation? (keysOf entries) = none := by
  rw [rootViolation?, filter_not_isKey, h]
  rfl

theorem rootViolation?_of_unknown (h : unknownNames entries ≠ []) :
    rootViolation? (keysOf entries) =
      some ⟨none, .unexpected ((unknownNames entries).map .text)⟩ := by
  obtain ⟨name, names, hnames⟩ := List.exists_cons_of_ne_nil h
  rw [rootViolation?, filter_not_isKey, hnames]
  rfl

/-- Where all names are known, the values alone count. -/
theorem violations_of_known (h : unknownNames entries = []) :
    violations (keysOf entries) value? = keyViolations value? := by
  rw [violations, rootViolation?_of_known h]
  rfl

theorem violations_of_unknown (h : unknownNames entries ≠ []) :
    violations (keysOf entries) value? =
      ⟨none, .unexpected ((unknownNames entries).map .text)⟩ :: keyViolations value? := by
  rw [violations, rootViolation?_of_unknown h]
  rfl

theorem ofValue_named (entries : List (Text × Value)) :
    ofValue (named entries) = ofEntries (keysOf entries) (valueOf entries) := rfl

theorem rejected_eq (source : Text) (violation : Violation) :
    Verdict.rejected (Fault.invalid source violation).failure =
      rejection source ((violation.key.map Key.name).getD "<root>") violation.problem.message := rfl

theorem verdict_of_nil (source : Text) (h : violations (keysOf entries) (valueOf entries) = []) :
    verdict source (named entries) = .accepted (({} : Config).putAll (valueOf entries)) := by
  rw [verdict, ofValue_named, ofEntries, h]

theorem verdict_of_cons (source : Text) {first : Violation} {others : List Violation}
    (h : violations (keysOf entries) (valueOf entries) = first :: others) :
    verdict source (named entries) =
      if (first :: others).all fun v => v.problem.isWritable then
        rejection source ((first.key.map Key.name).getD "<root>") first.problem.message
      else .unreported := by
  rw [verdict, ofValue_named, ofEntries, h, ← rejected_eq]
  simp only [Refusal.of]
  cases (first :: others).all fun v => v.problem.isWritable <;> rfl

/-- Where all names are known, the greatest key with a violation is reported. -/
theorem verdict_of_known (source : Text) (h : unknownNames entries = []) :
    verdict source (named entries) = match keyViolations (valueOf entries) with
      | [] => .accepted (({} : Config).putAll (valueOf entries))
      | first :: others =>
          if (first :: others).all fun v => v.problem.isWritable then
            rejection source ((first.key.map Key.name).getD "<root>") first.problem.message
          else .unreported := by
  have hviolations :
      violations (keysOf entries) (valueOf entries) = keyViolations (valueOf entries) :=
    violations_of_known h
  split
  next hnone => exact verdict_of_nil source (hviolations.trans hnone)
  next hsome => exact verdict_of_cons source (hviolations.trans hsome)

/-- Where some names are unknown, they are reported. -/
theorem verdict_of_unknown (source : Text) (h : unknownNames entries ≠ []) :
    verdict source (named entries) =
      if (keyViolations (valueOf entries)).all fun v => v.problem.isWritable then
        rejection source "<root>" (unexpectedMessage (sortOn id (unknownNames entries)))
      else .unreported := by
  have hcons := verdict_of_cons source (violations_of_unknown h)
  rw [List.all_cons, Rule.Problem.isWritable, areWritable_texts, Bool.true_and,
    message_unexpected] at hcons
  exact hcons

/-! ## Verdicts are right -/

theorem verdict_accepted_iff (source : Text) (h : (entries.map Prod.fst).Nodup) :
    (∃ c, verdict source (named entries) = .accepted c) ↔
      ∀ entry ∈ entries, ∃ k : Key, entry.1 = k.name ∧ k.rule.Admits entry.2 := by
  have hnil : (∃ c, verdict source (named entries) = .accepted c) ↔
      violations (keysOf entries) (valueOf entries) = [] := by
    cases hviolations : violations (keysOf entries) (valueOf entries) with
    | nil => simp [verdict_of_nil source hviolations]
    | cons first others =>
        rw [verdict_of_cons source hviolations]
        split <;> simp [rejection]
  rw [hnil, violations_eq_nil_iff]
  constructor
  · rintro ⟨hkeys, hvalues⟩ ⟨name, v⟩ hentry
    have hkey : isKey (.text name) = true :=
      hkeys _ (List.mem_map_of_mem (List.mem_map_of_mem hentry))
    obtain ⟨k, rfl⟩ := isKey_text_iff.1 hkey
    have hvalue : valueOf entries k = some v := (valueOf_eq_some_iff h).2 hentry
    exact ⟨k, rfl, Rule.problem?_eq_none_iff.1 (hvalues k v hvalue)⟩
  · intro hall
    constructor
    · intro key hkey
      simp only [keysOf, ofNamed, List.map_map, List.mem_map] at hkey
      obtain ⟨entry, hentry, rfl⟩ := hkey
      obtain ⟨k, hk, -⟩ := hall entry hentry
      exact isKey_text_iff.2 ⟨k, hk⟩
    · intro k v hvalue
      obtain ⟨l, hl, hadmits⟩ := hall _ ((valueOf_eq_some_iff h).1 hvalue)
      rw [Key.eq_of_name hl]
      exact Rule.problem?_eq_none_iff.2 hadmits

theorem verdict_unreported_iff (source : Text) (h : (entries.map Prod.fst).Nodup) :
    verdict source (named entries) = .unreported ↔ ¬CanReport entries := by
  rw [← keyViolations_isWritable_iff h]
  by_cases hunknown : unknownNames entries = []
  · rw [verdict_of_known source hunknown]
    cases keyViolations (valueOf entries) with
    | nil => simp
    | cons first others =>
        simp only []
        split <;> simp_all [rejection]
  · rw [verdict_of_unknown source hunknown]
    split <;> simp_all [rejection]

theorem exists_unknown (source : Text) (h : (entries.map Prod.fst).Nodup)
    (hreport : CanReport entries) (hunknown : ∃ entry ∈ entries, ¬IsKnown entry.1) :
    ∃ names : List Text, InOrder id names ∧
      (∀ name, name ∈ names ↔ name ∈ entries.map Prod.fst ∧ ¬IsKnown name) ∧
      verdict source (named entries) = rejection source "<root>" (unexpectedMessage names) := by
  refine ⟨sortOn id (unknownNames entries), inOrder_unknownNames h, fun name => ?_, ?_⟩
  · rw [(Text.sortOn_perm id _).mem_iff, mem_unknownNames]
  · have hsome : unknownNames entries ≠ [] := by
      rw [ne_eq, unknownNames_eq_nil_iff]
      push Not
      exact hunknown
    rw [verdict_of_unknown source hsome, if_pos ((keyViolations_isWritable_iff h).2 hreport)]

theorem exists_greatest (source : Text) (h : (entries.map Prod.fst).Nodup)
    (hreport : CanReport entries) (hknown : ∀ entry ∈ entries, IsKnown entry.1)
    (hrejected : ¬∃ c, verdict source (named entries) = .accepted c) :
    ∃ (k : Key) (v : Value) (problem : Rule.Problem), ((k.name : Text), v) ∈ entries ∧
      FirstProblem v k.rule.keywords problem ∧
      (∀ (l : Key) (w : Value), ((l.name : Text), w) ∈ entries →
        Text.before k.name l.name = true → l.rule.Admits w) ∧
      verdict source (named entries) = rejection source k.name problem.message := by
  have hverdict := verdict_of_known source (unknownNames_eq_nil_iff.2 hknown)
  have hwritable := (keyViolations_isWritable_iff h).2 hreport
  cases hviolations : keyViolations (valueOf entries) with
  | nil =>
      rw [hviolations] at hverdict
      exact absurd ⟨_, hverdict⟩ hrejected
  | cons first others =>
      obtain ⟨k, v, problem, hvalue, hproblem, rfl, hgreater⟩ :=
        exists_of_keyViolations_eq_cons hviolations
      rw [hviolations] at hverdict hwritable
      refine ⟨k, v, problem, (valueOf_eq_some_iff h).1 hvalue,
        Rule.problem?_eq_some_iff.1 hproblem, fun l w hw hbefore => ?_, ?_⟩
      · have hvalue' : valueOf entries l = some w := (valueOf_eq_some_iff h).2 hw
        exact Rule.problem?_eq_none_iff.1 (hgreater l w hvalue' hbefore)
      · rw [hverdict]
        exact if_pos hwritable

theorem verdict_of_perm (source : Text) (h : (entries.map Prod.fst).Nodup)
    {entries' : List (Text × Value)} (hperm : entries.Perm entries') :
    verdict source (named entries') = verdict source (named entries) := by
  -- The verdict looks at the values by key and at the unknown names in their order.
  have hvalues : valueOf entries' = valueOf entries := valueOf_eq_of_perm h hperm
  have hnames : (unknownNames entries).Perm (unknownNames entries') :=
    (hperm.map Prod.fst).filter _
  by_cases hunknown : unknownNames entries = []
  · have hunknown' : unknownNames entries' = [] := by
      rw [hunknown] at hnames
      exact List.nil_perm.1 hnames
    rw [verdict_of_known source hunknown, verdict_of_known source hunknown', hvalues]
  · have hunknown' : unknownNames entries' ≠ [] := by
      intro hnil
      rw [hnil] at hnames
      exact hunknown (List.perm_nil.1 hnames)
    rw [verdict_of_unknown source hunknown, verdict_of_unknown source hunknown', hvalues,
      sortOn_unknownNames h hperm]

/-- The verdict on a mapping is right, and it does not depend on the order of the entries. -/
theorem verdict_exact (source : Text) (h : (entries.map Prod.fst).Nodup) :
    IsJudged source entries (verdict source (named entries)) where
  accepted := verdict_accepted_iff source h
  unreported := verdict_unreported_iff source h
  root := exists_unknown source h
  key := exists_greatest source h
  reordered _ hperm := verdict_of_perm source h hperm

theorem verdict_of_unknown_and_empty :
    let entries : List (Text × Value) := [("zone", .null), ("npm", .text ""), ("area", .list [])]
    (entries.map Prod.fst).Nodup ∧
      IsJudged "book.yaml" entries (verdict "book.yaml" (named entries)) ∧
      verdict "book.yaml" (named entries) = rejection "book.yaml" "<root>"
        "Additional properties are not allowed ('area', 'zone' were unexpected)" ∧
      verdict "book.yaml" (named entries.reverse) = verdict "book.yaml" (named entries) := by
  intro entries
  have hnames : (entries.map Prod.fst).Nodup := by decide
  have hjudged : IsJudged "book.yaml" entries (verdict "book.yaml" (named entries)) :=
    verdict_exact "book.yaml" hnames
  exact ⟨hnames, hjudged, by decide +kernel, hjudged.reordered _ entries.reverse_perm.symm⟩

end Bindery.Config
