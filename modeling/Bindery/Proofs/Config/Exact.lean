import Bindery.Proofs.Config.Load
import Bindery.Proofs.Config.Sound
import Bindery.Proofs.Yaml.Keys

/-!
# Configurations are loaded exactly

A configuration that is loaded from a mapping has the value of each entry under the key of the
entry, and else the defaults (`IsExact`).  What it shows of itself is accepted again and gives
the same configuration, and so it is with another version of the pinned dependency
(`IsClosed`).  `load_exact` says so for every file that holds a document, and what is loaded
from the documents that are no mappings.
-/

namespace Bindery

open Yaml (Document Atom NodeId KeysDiffer)

theorem Value.same_text_iff {v : Value} {s : Text} : v.same (.text s) = true ↔ v = .text s := by
  cases v <;> simp [Value.same, Value.sameLeaf, Value.number?]

theorem Key.eq_of_name {k l : Key} (h : (k.name : Text) = l.name) : k = l := by
  have hfound : ofName? k.name = ofName? l.name := by rw [h]
  rw [ofName?_name, ofName?_name] at hfound
  exact Option.some.inj hfound

namespace Config

variable {fs : FileSystem} {current : List Text} {root path : Path}
  {explicit fromEnvironment : Option Text} {bytes : List UInt8} {d : Document}
  {entries : List (Atom × NodeId)} {c : Config}

/-! ## Entries by key -/

/-- The value that the entries of a mapping give to a key. -/
def given (d : Document) (entries : List (Atom × NodeId)) (k : Key) : Option Value :=
  (entries.find? fun entry => entry.1.value.same (.text k.name)).map fun entry => d.value entry.2

theorem given_cons_of_eq {entry : Atom × NodeId} {k : Key} (h : entry.1.value = .text k.name)
    (entries : List (Atom × NodeId)) : given d (entry :: entries) k = some (d.value entry.2) := by
  have hsame : entry.1.value.same (.text k.name) = true := Value.same_text_iff.2 h
  simp [given, hsame]

theorem given_cons_of_ne {entry : Atom × NodeId} {k : Key} (h : entry.1.value ≠ .text k.name)
    (entries : List (Atom × NodeId)) : given d (entry :: entries) k = given d entries k := by
  have hsame : ¬entry.1.value.same (.text k.name) = true := fun hs => h (Value.same_text_iff.1 hs)
  simp [given, hsame]

theorem given_eq_none_iff {k : Key} :
    given d entries k = none ↔ ∀ entry ∈ entries, entry.1.value ≠ .text k.name := by
  simp [given, Value.same_text_iff]

/-- Two entries are not both under one key. -/
theorem ne_of_keysDiffer {entry : Atom × NodeId} {k : Key} (h : KeysDiffer (entry :: entries))
    (hkey : entry.1.value = .text k.name) : ∀ other ∈ entries, other.1.value ≠ .text k.name := by
  intro other hother hvalue
  have hsame : entry.1.same other.1 = true := by
    rw [Atom.same, hkey, hvalue, Value.same_text_iff.2 rfl, Bool.true_or]
  rw [(List.pairwise_cons.1 h).1 other hother] at hsame
  cases hsame

theorem given_of_mem (h : KeysDiffer entries) {entry : Atom × NodeId} (hmem : entry ∈ entries)
    {k : Key} (hkey : entry.1.value = .text k.name) :
    given d entries k = some (d.value entry.2) := by
  induction entries with
  | nil => cases hmem
  | cons first entries ih =>
      rcases List.mem_cons.1 hmem with rfl | hmem
      · exact given_cons_of_eq hkey entries
      · have hfirst : first.1.value ≠ .text k.name := fun hvalue =>
          ne_of_keysDiffer h hvalue entry hmem hkey
        rw [given_cons_of_ne hfirst]
        exact ih (List.pairwise_cons.1 h).2 hmem

/-! ## Construction -/

/-- The entries of a mapping as values by name, if all keys are texts. -/
def keywords? (d : Document) (entries : List (Atom × NodeId)) : Option (List (Text × Value)) :=
  entries.mapM fun entry => entry.1.value.text?.map fun name => (name, d.value entry.2)

/-- Settings that are constructed from names and values have the values of the entries. -/
theorem exists_assign?_keywords (hkeyed : KeysDiffer entries)
    (hnamed : ∀ entry ∈ entries, ∃ k : Key, entry.1.value = .text k.name) (s : Settings) :
    ∃ t, (keywords? d entries).bind s.assign? = some t ∧
      ∀ k, t.value k = (given d entries k).getD (s.value k) := by
  induction entries generalizing s with
  | nil => exact ⟨s, rfl, fun _ => rfl⟩
  | cons first entries ih =>
      obtain ⟨k₀, hfirst⟩ := hnamed first List.mem_cons_self
      obtain ⟨t, hassign, hvalue⟩ := ih (List.pairwise_cons.1 hkeyed).2
        (fun entry hentry => hnamed entry (List.mem_cons_of_mem _ hentry))
        (s.set k₀ (d.value first.2))
      refine ⟨t, ?_, fun k => ?_⟩
      · rw [keywords?, List.mapM_cons, hfirst, ← hassign, keywords?]
        cases (entries.mapM fun entry =>
          entry.1.value.text?.map fun name => (name, d.value entry.2)) with
        | none => rfl
        | some changes => exact s.assign?_name k₀ (d.value first.2) changes
      · rw [hvalue]
        by_cases hk : k = k₀
        · subst hk
          have hrest : given d entries k = none :=
            given_eq_none_iff.2 (ne_of_keysDiffer hkeyed hfirst)
          rw [hrest, given_cons_of_eq hfirst]
          exact if_pos rfl
        · have hother : first.1.value ≠ .text k.name := by
            rw [hfirst]
            intro hname
            exact hk (Key.eq_of_name (Value.text.inj hname)).symm
          rw [given_cons_of_ne hother]
          exact congrArg _ (if_neg hk)

/-! ## Exactness -/

/-- A configuration has the values of the entries of a mapping, and else the defaults.  It is
the one that is constructed from the entries as they are. -/
structure IsExact (d : Document) (entries : List (Atom × NodeId)) (c : Config) : Prop where
  entry : ∀ entry ∈ entries, ∃ k : Key, entry.1.value = .text k.name ∧
    k.rule.problem? (d.value entry.2) = none ∧ c.get k = d.value entry.2
  default : ∀ k : Key, (∀ entry ∈ entries, entry.1.value ≠ .text k.name) →
    c.get k = ({} : Config).get k
  constructed : (keywords? d entries).bind (Settings.ofConfig {}).assign? = some (.ofConfig c)

theorem exists_key_of_isKey {v : Value} (h : isKey v = true) : ∃ k : Key, v = .text k.name := by
  cases v with
  | text s =>
      rw [isKey, Option.isSome_iff_exists] at h
      obtain ⟨k, hk⟩ := h
      have hname := List.find?_some hk
      exact ⟨k, congrArg Value.text (eq_of_beq hname)⟩
  | _ => cases h

theorem isExact_of_ofEntries (hkeyed : KeysDiffer entries)
    (h : ofEntries (entries.map fun entry => entry.1.value) (given d entries) = .ok c) :
    IsExact d entries c := by
  obtain ⟨hkeys, hrules⟩ := violations_eq_nil_iff.1 (ofEntries_eq_ok_iff.1 h).1
  have hnamed : ∀ entry ∈ entries, ∃ k : Key, entry.1.value = .text k.name := fun entry hentry =>
    exists_key_of_isKey (hkeys _ (List.mem_map_of_mem hentry))
  refine ⟨fun entry hentry => ?_, fun k hk => ?_, ?_⟩
  · obtain ⟨k, hk⟩ := hnamed entry hentry
    have hgiven : given d entries k = some (d.value entry.2) := given_of_mem hkeyed hentry hk
    refine ⟨k, hk, hrules k _ hgiven, ?_⟩
    rw [get_of_ofEntries h, hgiven, Option.getD_some]
  · rw [get_of_ofEntries h, given_eq_none_iff.2 hk, Option.getD_none]
  · obtain ⟨t, hassign, hvalue⟩ := exists_assign?_keywords hkeyed hnamed (.ofConfig {})
    rw [hassign]
    have hget : ∀ k, t.value k = c.get k := fun k => (hvalue k).trans (get_of_ofEntries h k).symm
    exact congrArg some (congrArg Settings.mk (funext hget))

/-- A configuration is read back from what it shows of itself, and so it is with any version of
the pinned dependency that is not empty. -/
structure IsClosed (c : Config) : Prop where
  shown : ofValue (.ofJson c.toJson) = .ok c
  overridden : ∀ version : Text, version ≠ [] →
    (Settings.ofConfig c).override? [(Key.compatVersion.name, .text version)] =
        some (.ofConfig (c.withCompatVersion (some version))) ∧
      ofValue (.ofJson (c.withCompatVersion (some version)).toJson) =
        .ok (c.withCompatVersion (some version))

theorem IsSound.isClosed (h : c.IsSound) : c.IsClosed where
  shown := h.ofValue_toJson
  overridden version hversion :=
    ⟨Settings.override?_compatVersion c version, (h.withCompatVersion hversion).ofValue_toJson⟩

/-! ## Loading -/

/-- What is loaded from a document with a mapping. -/
inductive MappingLoaded (path : Path) (d : Document) (entries : List (Atom × NodeId)) :
    Except LoadFault (Config × Option Path) → Prop where
  /-- A configuration with its entries. -/
  | accepted {c : Config} : IsExact d entries c → MappingLoaded path d entries (.ok (c, some path))
  /-- A broken rule is reported. -/
  | rejected {v : Violation} : v ∈ violationsOf d entries →
      (∀ w ∈ violationsOf d entries, w.problem.isWritable = true) →
      MappingLoaded path d entries (.error (.config (.invalid path.text v)))
  /-- A rule is broken, and the report about that cannot be written. -/
  | unwritable {v : Violation} : v ∈ violationsOf d entries → v.problem.isWritable = false →
      MappingLoaded path d entries (.error .unwritable)

theorem ofDocument_mapping (path : Path) (hroot : d.rootCell = .mapping entries) :
    ofDocument path d =
      (ofEntries (entries.map fun entry => entry.1.value) (given d entries)).mapError
        (ofRefusal path) := by
  rw [ofDocument, hroot]
  rfl

theorem of_eq_violation {first v : Violation} {others : List Violation}
    (h : Refusal.of first others = .violation v) :
    v = first ∧ ∀ w ∈ first :: others, w.problem.isWritable = true := by
  unfold Refusal.of at h
  split at h
  case isTrue hwritable =>
    cases h
    exact ⟨rfl, List.all_eq_true.1 hwritable⟩
  case isFalse => cases h

theorem exists_of_ofEntries_eq_error {keys : List Value} {value? : Key → Option Value}
    {refusal : Refusal} (h : ofEntries keys value? = .error refusal) :
    ∃ first others, violations keys value? = first :: others ∧ refusal = .of first others := by
  unfold ofEntries at h
  split at h
  case h_1 => cases h
  case h_2 first others hviolations =>
    cases h
    exact ⟨first, others, hviolations, rfl⟩

theorem mappingLoaded_ofDocument (path : Path) (hkeyed : KeysDiffer entries)
    (hroot : d.rootCell = .mapping entries) :
    MappingLoaded path d entries ((ofDocument path d).map fun c => (c, some path)) := by
  rw [ofDocument_mapping path hroot]
  cases hload : ofEntries (entries.map fun entry => entry.1.value) (given d entries) with
  | ok c => exact .accepted (isExact_of_ofEntries hkeyed hload)
  | error refusal =>
      obtain ⟨first, others, hall, hrefusal⟩ := exists_of_ofEntries_eq_error hload
      have hviolations : violationsOf d entries = first :: others := hall
      cases refusal with
      | violation v =>
          obtain ⟨rfl, hwritable⟩ := of_eq_violation hrefusal.symm
          rw [← hviolations] at hwritable
          exact .rejected (hviolations ▸ List.mem_cons_self) hwritable
      | unwritable =>
          obtain ⟨v, hv, hlong⟩ := (of_eq_unwritable_iff first others).1 hrefusal.symm
          exact .unwritable (hviolations ▸ hv) hlong

theorem load_of_leads (h : fs.Leads current (candidate root explicit fromEnvironment) bytes) :
    load fs current root explicit fromEnvironment =
      (ofBytes (candidate root explicit fromEnvironment) bytes).map
        fun c => (c, some (candidate root explicit fromEnvironment)) := by
  rcases fs.isFile_cases current (candidate root explicit fromEnvironment) with
    ⟨hidden, hconceals, -⟩ | ⟨bytes', hleads, hfile, hread⟩ | ⟨barrier, hguards, -, -⟩ | ⟨hlacks, -⟩
  · cases hconceals.walk.symm.trans h.2
  · cases hleads.2.symm.trans h.2
    exact load_of_file hfile hread
  · cases hguards.2.symm.trans h.2
  · exact absurd h (hlacks.file bytes)

/-- A file is loaded exactly, and to a configuration that is read back. -/
structure IsExactLoad (path : Path) (bytes : List UInt8)
    (loaded : Except LoadFault (Config × Option Path)) : Prop where
  empty : documentIn bytes = .ok none → loaded = .ok ({}, some path)
  null : ∀ d node, documentIn bytes = .ok (some d) → d.rootCell = .leaf ⟨.null, node⟩ →
    loaded = .ok ({}, some path)
  mapping : ∀ d entries, documentIn bytes = .ok (some d) → d.rootCell = .mapping entries →
    MappingLoaded path d entries loaded
  other : ∀ d, documentIn bytes = .ok (some d) → (∀ node, d.rootCell ≠ .leaf ⟨.null, node⟩) →
    (∀ entries, d.rootCell ≠ .mapping entries) → loaded = .error (.config (.notMapping path))
  closed : ∀ c source, loaded = .ok (c, source) → c.IsClosed

theorem isSound_of_ofDocument (h : ofDocument path d = .ok c) : c.IsSound := by
  cases hroot : d.rootCell with
  | mapping entries =>
      rw [ofDocument_mapping path hroot] at h
      cases hload : ofEntries (entries.map fun entry => entry.1.value) (given d entries) with
      | error refusal =>
          rw [hload] at h
          cases h
      | ok c' =>
          rw [hload] at h
          cases h
          exact isSound_of_ofEntries hload
  | _ =>
      rw [ofDocument, hroot] at h
      split at h
      case h_1 hmapping => cases hmapping
      case h_2 =>
        cases h
        exact isSound_default
      case h_3 => cases h

theorem isSound_of_ofBytes (h : ofBytes path bytes = .ok c) : c.IsSound := by
  cases hdocument : documentIn bytes with
  | error e =>
      rw [ofBytes_of_error path hdocument] at h
      cases h
  | ok d? =>
      cases d? with
      | none =>
          rw [ofBytes_of_none path hdocument] at h
          cases h
          exact isSound_default
      | some d =>
          rw [ofBytes_of_some path hdocument] at h
          exact isSound_of_ofDocument h

/-- What is loaded is sound. -/
theorem isSound_of_load {source : Option Path}
    (h : load fs current root explicit fromEnvironment = .ok (c, source)) : c.IsSound := by
  rcases load_eq_ok h with ⟨bytes, -, -, hbytes⟩ | ⟨-, rfl⟩
  · exact isSound_of_ofBytes hbytes
  · exact isSound_default

/-- Loading a file is exact, and what is loaded is read back from what it shows of itself. -/
theorem load_exact (h : fs.Leads current (candidate root explicit fromEnvironment) bytes) :
    IsExactLoad (candidate root explicit fromEnvironment) bytes
      (load fs current root explicit fromEnvironment) := by
  rw [load_of_leads h]
  constructor
  case empty =>
    intro hdocument
    rw [ofBytes_of_none _ hdocument]
    rfl
  case null =>
    intro d node hdocument hroot
    rw [ofBytes_of_some _ hdocument, ofDocument, hroot]
    rfl
  case mapping =>
    intro d entries hdocument hroot
    have hkeyed : d.rootCell.IsKeyed := (Document.isKeyed_of_read hdocument).rootCell
    rw [hroot] at hkeyed
    rw [ofBytes_of_some _ hdocument]
    exact mappingLoaded_ofDocument _ hkeyed hroot
  case other =>
    intro d hdocument hnull hmapping
    rw [ofBytes_of_some _ hdocument, ofDocument]
    split
    case h_1 entries hroot => exact absurd hroot (hmapping entries)
    case h_2 node hroot => exact absurd hroot (hnull node)
    case h_3 => rfl
  case closed =>
    intro c source hload
    cases hbytes : ofBytes (candidate root explicit fromEnvironment) bytes with
    | error fault =>
        rw [hbytes] at hload
        cases hload
    | ok c' =>
        rw [hbytes] at hload
        cases hload
        exact (isSound_of_ofBytes hbytes).isClosed

/-- A repository whose configuration in the usual place has some bytes. -/
def configured (bytes : List UInt8) : FileSystem :=
  FileSystem.create ⟨["srv", "book"], []⟩ ["srv", "book", "configs", "book.yaml"] (.file bytes)

/-- A key is given twice, and a whole number has a point. -/
def twice : List UInt8 := "npm: yarn\nnpm: pnpm\ntimeout_seconds: 2.0\n".toUTF8.toList

/-- In the place of a text stands an integer that is too long to be written. -/
def oversized : List UInt8 := "npm: 0x1".toUTF8.toList ++ List.replicate 3600 48

/-- Loading ended as the report about the configuration cannot be written. -/
def isUnwritable {α : Type} : Except LoadFault α → Bool
  | .error .unwritable => true
  | _ => false

theorem eq_unwritable {α : Type} {loaded : Except LoadFault α} (h : isUnwritable loaded = true) :
    loaded = .error .unwritable := by
  unfold isUnwritable at h
  split at h
  · rfl
  · cases h

theorem eq_ok_of_toOption {α : Type} {loaded : Except LoadFault α} {a : α}
    (h : loaded.toOption = some a) : loaded = .ok a := by
  cases loaded with
  | error fault => cases h
  | ok a' => rw [Option.some.inj h]

theorem load_exact_of_twice_and_oversized :
    IsExactLoad (candidate (.parse "/srv/book") none none) twice
        (.ok ({ npm := "pnpm", timeoutSeconds := .float 2.0 },
          some (candidate (.parse "/srv/book") none none))) ∧
      IsExactLoad (candidate (.parse "/srv/book") none none) oversized (.error .unwritable) := by
  have hleads : ∀ bytes,
      (configured bytes).Leads [] (candidate (.parse "/srv/book") none none) bytes :=
    fun bytes => ⟨by decide +kernel, rfl⟩
  have htwice : ofBytes (candidate (.parse "/srv/book") none none) twice =
      .ok { npm := "pnpm", timeoutSeconds := .float 2.0 } :=
    eq_ok_of_toOption (by decide +kernel)
  have hoversized : ofBytes (candidate (.parse "/srv/book") none none) oversized =
      .error .unwritable :=
    eq_unwritable (by decide +kernel)
  have hexact := load_exact (hleads twice)
  have hexact' := load_exact (hleads oversized)
  rw [load_of_leads (hleads twice), htwice] at hexact
  rw [load_of_leads (hleads oversized), hoversized] at hexact'
  exact ⟨hexact, hexact'⟩

end Config
end Bindery
