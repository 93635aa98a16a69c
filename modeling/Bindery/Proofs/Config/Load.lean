import Bindery.Config.File
import Bindery.Proofs.Text.Stream

/-!
# What a configuration is given up for

Nearly all that can be wrong with a configuration is a `Config.Fault`, and so is a file that
cannot be opened or read.  `GivenUp` lists the rest: a path that the system cannot look at, and a
file that is `Unusable`, as its bytes are no text, a scalar has no value, or the report about a
value cannot be written.  `load_givenUp_iff` says that loading fails with these and with no other
fault that is none of the configuration.
-/

namespace Bindery

/-! ## Looking for the file -/

namespace FileSystem

variable {fs : FileSystem} {current : List Text} {p : Path}

/-- The fault leaves open what a path leads to. -/
def WalkFault.hides : WalkFault → Bool
  | .nameTooLong | .accessDenied | .inputOutput => true
  | .missing | .notDirectory | .linkLoop => false

/-- The path is taken, and the system cannot look at its end: a name or the path is too long, it
goes through a directory that is closed, or the medium is damaged. -/
structure Conceals (fs : FileSystem) (current : List Text) (p : Path) (fault : WalkFault) :
    Prop where
  taken : pathFault? p.text = none
  walk : fs.walk current p = .error fault
  hides : fault.hides = true

/-- The path is taken and leads to a file with some bytes. -/
def Leads (fs : FileSystem) (current : List Text) (p : Path) (bytes : List UInt8) : Prop :=
  pathFault? p.text = none ∧ fs.walk current p = .ok (.file bytes)

/-- The path is taken and leads to a file whose bytes cannot be had. -/
def Guards (fs : FileSystem) (current : List Text) (p : Path) (fault : FileFault) : Prop :=
  pathFault? p.text = none ∧ fs.walk current p = .ok (.guarded fault)

/-- The path leads to no file, and nothing stands in the way of seeing that. -/
structure Lacks (fs : FileSystem) (current : List Text) (p : Path) : Prop where
  file (bytes : List UInt8) : ¬fs.Leads current p bytes
  guarded (fault : FileFault) : ¬fs.Guards current p fault
  seen (fault : WalkFault) : ¬fs.Conceals current p fault

theorem isFile_cases (fs : FileSystem) (current : List Text) (p : Path) :
    (∃ fault, fs.Conceals current p fault ∧ fs.isFile current p = .error fault) ∨
    (∃ bytes, fs.Leads current p bytes ∧ fs.isFile current p = .ok true ∧
      fs.read current p = .ok bytes) ∨
    (∃ fault, fs.Guards current p fault ∧ fs.isFile current p = .ok true ∧
      fs.read current p = .error fault) ∨
    (fs.Lacks current p ∧ fs.isFile current p = .ok false) := by
  unfold isFile read
  cases hfault : pathFault? p.text with
  | some fault =>
      refine .inr (.inr (.inr ⟨⟨fun _ h => ?_, fun _ h => ?_, fun _ h => ?_⟩, rfl⟩))
      · cases hfault.symm.trans h.1
      · cases hfault.symm.trans h.1
      · cases hfault.symm.trans h.taken
  | none =>
      cases hwalk : fs.walk current p with
      | error fault =>
          have hlacks (hseen : fault.hides = false) : fs.Lacks current p := by
            refine ⟨fun _ h => ?_, fun _ h => ?_, fun _ h => ?_⟩
            · cases hwalk.symm.trans h.2
            · cases hwalk.symm.trans h.2
            · cases hwalk.symm.trans h.walk
              exact Bool.noConfusion (hseen.symm.trans h.hides)
          cases fault with
          | nameTooLong | accessDenied | inputOutput => exact .inl ⟨_, ⟨hfault, hwalk, rfl⟩, rfl⟩
          | missing | notDirectory | linkLoop => exact .inr (.inr (.inr ⟨hlacks rfl, rfl⟩))
      | ok target =>
          have hlacks (hfile : ∀ bytes, target ≠ .file bytes)
              (hguarded : ∀ fault, target ≠ .guarded fault) : fs.Lacks current p := by
            refine ⟨fun bytes h => ?_, fun fault h => ?_, fun _ h => ?_⟩
            · exact hfile bytes (Except.ok.inj (hwalk.symm.trans h.2))
            · exact hguarded fault (Except.ok.inj (hwalk.symm.trans h.2))
            · cases hwalk.symm.trans h.walk
          cases target with
          | file bytes => exact .inr (.inl ⟨bytes, ⟨hfault, hwalk⟩, rfl, rfl⟩)
          | guarded fault => exact .inr (.inr (.inl ⟨fault, ⟨hfault, hwalk⟩, rfl, rfl⟩))
          | directory place => exact .inr (.inr (.inr ⟨hlacks (by simp) (by simp), rfl⟩))
          | outside => exact .inr (.inr (.inr ⟨hlacks (by simp) (by simp), rfl⟩))

end FileSystem

namespace Config

open Text (Stream)
open Yaml (Document)

variable {fs : FileSystem} {current : List Text} {root path : Path}
  {explicit fromEnvironment : Option Text} {bytes : List UInt8} {cs : List Char}
  {fault : LoadFault}

/-- The path of the file that is asked for, or else of the usual one. -/
def candidate (root : Path) (explicit fromEnvironment : Option Text) : Path :=
  root / ((nameFrom explicit fromEnvironment).map Path.parse).getD usualPath

/-! ## Faults of a file -/

/-- The characters of a file that are looked at in spite of a fault in its bytes. -/
def frontOf (cs : List Char) : List Char := cs.take (Document.taken cs.length)

/-- What is wrong with the entries of a mapping in a document. -/
def violationsOf (d : Document) (entries : List (Yaml.Atom × Yaml.NodeId)) : List Violation :=
  violations (entries.map fun entry => entry.1.value) fun k =>
    (entries.find? fun entry => entry.1.value.same (.text k.name)).map fun entry => d.value entry.2

/-- The document of a file, if it holds one. -/
def documentIn (bytes : List UInt8) : Except (Yaml.Error ⊕ Yaml.BlockFault) (Option Document) :=
  Document.read (Stream.read bytes).1 (Stream.read bytes).2

/-- A file is given up for a fault. -/
inductive Unusable (bytes : List UInt8) : LoadFault → Prop where
  /-- The bytes are those of no text, and nothing is wrong with the characters in front. -/
  | undecodable {fault : Text.Utf8.Fault} : ¬Text.Utf8.IsText bytes →
      (Stream.read bytes).2 = some fault →
      (∀ c ∈ frontOf (Stream.read bytes).1, Document.isAcceptable c = true) →
      Document.faultOfFront? (frontOf (Stream.read bytes).1) = none →
      Unusable bytes (.undecodable fault)
  /-- A scalar has no value. -/
  | badValue {value : Yaml.BadValue} : documentIn bytes = .error (.inl (.badValue value)) →
      Unusable bytes (.badValue value)
  /-- A rule is broken, and a report about that cannot be written. -/
  | unwritable {d : Document} {entries : List (Yaml.Atom × Yaml.NodeId)} {v : Violation} :
      documentIn bytes = .ok (some d) → d.rootCell = .mapping entries →
      v ∈ violationsOf d entries → v.problem.isWritable = false → Unusable bytes .unwritable

theorem findUnacceptable?_eq_none_iff :
    Document.findUnacceptable? cs = none ↔ ∀ c ∈ cs, Document.isAcceptable c = true := by
  simp [Document.findUnacceptable?, List.findIdx?_eq_none_iff]

theorem brokenBlock?_undecodable_iff {broken : Option Text.Utf8.Fault} {size : Nat}
    {fault : Text.Utf8.Fault} :
    Document.brokenBlock? cs broken = some (size, .undecodable fault) ↔
      broken = some fault ∧ size = Document.taken cs.length ∧
        ∀ c ∈ frontOf cs, Document.isAcceptable c = true := by
  rw [← findUnacceptable?_eq_none_iff, frontOf]
  cases broken with
  | none =>
      simp only [Document.brokenBlock?, reduceCtorEq, false_and, iff_false]
      split <;> simp
  | some broken =>
      simp only [Document.brokenBlock?, Option.isSome_some, if_true]
      cases Document.findUnacceptable? (cs.take (Document.taken cs.length)) with
      | none =>
          simp only [Option.map_some, Option.some.injEq, Prod.mk.injEq,
            Yaml.BlockFault.undecodable.injEq, and_true]
          exact ⟨fun h => ⟨h.2, h.1.symm⟩, fun h => ⟨h.2.symm, h.1⟩⟩
      | some index => simp

theorem read_block_iff {broken : Option Text.Utf8.Fault} {block : Yaml.BlockFault} :
    Document.read cs broken = .error (.inr block) ↔
      ∃ size, Document.brokenBlock? cs broken = some (size, block) ∧
        Document.faultOfFront? (cs.take size) = none := by
  unfold Document.read
  cases Document.brokenBlock? cs broken with
  | none => cases Document.ofText cs <;> simp [Except.mapError]
  | some broken =>
      obtain ⟨size, fault⟩ := broken
      cases hfront : Document.faultOfFront? (cs.take size) with
      | none => simp [hfront]
      | some error => simp [hfront]

/-- The fault of the bytes is met if nothing is wrong in front of it. -/
theorem read_undecodable_iff {broken : Option Text.Utf8.Fault} {fault : Text.Utf8.Fault} :
    Document.read cs broken = .error (.inr (.undecodable fault)) ↔
      broken = some fault ∧ (∀ c ∈ frontOf cs, Document.isAcceptable c = true) ∧
        Document.faultOfFront? (frontOf cs) = none := by
  simp only [read_block_iff, brokenBlock?_undecodable_iff, frontOf]
  constructor
  · rintro ⟨size, ⟨hbroken, rfl, hsound⟩, hfront⟩
    exact ⟨hbroken, hsound, hfront⟩
  · rintro ⟨hbroken, hsound, hfront⟩
    exact ⟨_, ⟨hbroken, rfl, hsound⟩, hfront⟩

theorem of_eq_unwritable_iff (first : Violation) (others : List Violation) :
    Refusal.of first others = .unwritable ↔
      ∃ v ∈ first :: others, v.problem.isWritable = false := by
  unfold Refusal.of
  split
  case isTrue h =>
    rw [List.all_eq_true] at h
    simp only [reduceCtorEq, false_iff, not_exists, not_and, Bool.not_eq_false]
    exact h
  case isFalse h =>
    simp only [List.all_eq_true, not_forall, exists_prop, Bool.not_eq_true] at h
    simp only [true_iff]
    exact h

theorem ofEntries_unwritable_iff (keys : List Value) (value? : Key → Option Value) :
    ofEntries keys value? = .error .unwritable ↔
      ∃ v ∈ violations keys value?, v.problem.isWritable = false := by
  unfold ofEntries
  cases violations keys value? with
  | nil => simp
  | cons first others => rw [Except.error.injEq, of_eq_unwritable_iff]

/-- The only fault of a document that is none of the configuration. -/
theorem ofDocument_error_iff (path : Path) (d : Document) :
    (ofDocument path d = .error fault ∧ ∀ f, fault ≠ .config f) ↔
      fault = .unwritable ∧ ∃ entries, d.rootCell = .mapping entries ∧
        ∃ v ∈ violationsOf d entries, v.problem.isWritable = false := by
  unfold ofDocument
  split
  case h_1 entries hroot =>
    simp only [hroot, Yaml.Cell.mapping.injEq, exists_eq_left', violationsOf]
    rw [← ofEntries_unwritable_iff]
    rcases ofEntries _ _ with (violation | _) | c
    · simp only [Except.mapError, ofRefusal, Except.error.injEq, reduceCtorEq, and_false, iff_false,
        not_and]
      rintro rfl hother
      exact hother _ rfl
    · simp only [Except.mapError, ofRefusal, Except.error.injEq, and_true]
      exact ⟨fun h => h.1.symm, fun h => ⟨h.symm, by simp [h]⟩⟩
    · simp [Except.mapError]
  case h_2 node hroot => simp [hroot]
  case h_3 hmapping _ =>
    constructor
    · rintro ⟨⟨⟩, hother⟩
      exact absurd rfl (hother _)
    · rintro ⟨-, entries, hroot, -⟩
      exact (hmapping entries hroot).elim

theorem ofBytes_of_error {e : Yaml.Error ⊕ Yaml.BlockFault} (path : Path)
    (h : documentIn bytes = .error e) : ofBytes path bytes = .error (ofYamlError path e) := by
  simp only [documentIn] at h
  simp only [ofBytes, documentOf, h]
  rfl

theorem ofBytes_of_none (path : Path) (h : documentIn bytes = .ok none) :
    ofBytes path bytes = .ok {} := by
  simp only [documentIn] at h
  simp only [ofBytes, documentOf, h]
  rfl

theorem ofBytes_of_some {d : Document} (path : Path) (h : documentIn bytes = .ok (some d)) :
    ofBytes path bytes = ofDocument path d := by
  simp only [documentIn] at h
  simp only [ofBytes, documentOf, h]
  rfl

/-- The faults of a file that are none of the configuration. -/
theorem ofBytes_error_iff (path : Path) (bytes : List UInt8) :
    (ofBytes path bytes = .error fault ∧ ∀ f, fault ≠ .config f) ↔ Unusable bytes fault := by
  constructor
  · rintro ⟨hload, hother⟩
    cases hdocument : documentIn bytes with
    | error e =>
        rw [ofBytes_of_error path hdocument] at hload
        rcases e with (f | value) | (_ | utf)
        · cases hload
          exact absurd rfl (hother _)
        · cases hload
          exact .badValue hdocument
        · cases hload
          exact absurd rfl (hother _)
        · cases hload
          obtain ⟨hbroken, hsound, hfront⟩ := read_undecodable_iff.1 hdocument
          exact .undecodable ((Stream.read_fault_iff bytes).1 ⟨_, hbroken⟩) hbroken hsound hfront
    | ok d? =>
        cases d? with
        | none =>
            rw [ofBytes_of_none path hdocument] at hload
            cases hload
        | some d =>
            rw [ofBytes_of_some path hdocument] at hload
            obtain ⟨rfl, entries, hroot, v, hv, hlong⟩ :=
              (ofDocument_error_iff path d).1 ⟨hload, hother⟩
            exact .unwritable hdocument hroot hv hlong
  · intro h
    cases h with
    | undecodable htext hbroken hsound hfront =>
        have hdocument : documentIn bytes = _ := read_undecodable_iff.2 ⟨hbroken, hsound, hfront⟩
        exact ⟨ofBytes_of_error path hdocument, by simp⟩
    | badValue hvalue => exact ⟨ofBytes_of_error path hvalue, by simp⟩
    | unwritable hdocument hroot hv hlong =>
        rw [ofBytes_of_some path hdocument, ofDocument_error_iff]
        exact ⟨rfl, _, hroot, _, hv, hlong⟩

/-! ## Loading -/

/-- Loading is given up for a fault that is none of the configuration. -/
inductive GivenUp (fs : FileSystem) (current : List Text) (path : Path) : LoadFault → Prop where
  /-- The system cannot look at the path. -/
  | unseen {fault : FileSystem.WalkFault} : fs.Conceals current path fault →
      GivenUp fs current path (.unseen ⟨fault, path⟩)
  /-- The file cannot be used. -/
  | unusable {bytes : List UInt8} {fault : LoadFault} : fs.Leads current path bytes →
      Unusable bytes fault → GivenUp fs current path fault

/-- The file is looked for in one place.  It need not be there if it is not asked for. -/
theorem path?_eq : path? fs current root explicit fromEnvironment = do
    if ← checkFile fs current (candidate root explicit fromEnvironment) then
      return some (candidate root explicit fromEnvironment)
    else if (nameFrom explicit fromEnvironment).isSome then
      throw (.config (.notFound (candidate root explicit fromEnvironment)))
    else return none := by
  unfold path? candidate
  cases nameFrom explicit fromEnvironment with
  | none =>
      simp only [Option.map_none, Option.getD_none]
      rcases checkFile fs current (root / usualPath) with _ | _ | _ <;> rfl
  | some name =>
      simp only [Option.map_some, Option.getD_some]
      rcases checkFile fs current (root / Path.parse name) with _ | _ | _ <;> rfl

theorem load_of_unseen {fault : FileSystem.WalkFault}
    (h : fs.isFile current (candidate root explicit fromEnvironment) = .error fault) :
    load fs current root explicit fromEnvironment =
      .error (.unseen ⟨fault, candidate root explicit fromEnvironment⟩) := by
  rw [load, path?_eq, checkFile, h]
  rfl

theorem load_of_content
    (h : fs.isFile current (candidate root explicit fromEnvironment) = .ok true) :
    load fs current root explicit fromEnvironment =
      (ofContent (candidate root explicit fromEnvironment)
        (fs.read current (candidate root explicit fromEnvironment))).map
          fun c => (c, some (candidate root explicit fromEnvironment)) := by
  have hpath : path? fs current root explicit fromEnvironment =
      .ok (some (candidate root explicit fromEnvironment)) := by
    rw [path?_eq, checkFile, h]
    rfl
  simp only [load, hpath, bind, Except.bind]
  cases ofContent (candidate root explicit fromEnvironment)
    (fs.read current (candidate root explicit fromEnvironment)) <;> rfl

theorem load_of_file
    (h : fs.isFile current (candidate root explicit fromEnvironment) = .ok true)
    (hread : fs.read current (candidate root explicit fromEnvironment) = .ok bytes) :
    load fs current root explicit fromEnvironment =
      (ofBytes (candidate root explicit fromEnvironment) bytes).map
        fun c => (c, some (candidate root explicit fromEnvironment)) := by
  rw [load_of_content h, hread]
  rfl

/-- A file whose bytes cannot be had is a fault of the configuration. -/
theorem load_of_guarded {fault : FileFault}
    (h : fs.isFile current (candidate root explicit fromEnvironment) = .ok true)
    (hread : fs.read current (candidate root explicit fromEnvironment) = .error fault) :
    load fs current root explicit fromEnvironment =
      .error (.config (.unreadable (candidate root explicit fromEnvironment) fault)) := by
  rw [load_of_content h, hread]
  rfl

theorem load_of_no_file
    (h : fs.isFile current (candidate root explicit fromEnvironment) = .ok false) :
    load fs current root explicit fromEnvironment =
      if (nameFrom explicit fromEnvironment).isSome then
        .error (.config (.notFound (candidate root explicit fromEnvironment)))
      else .ok ({}, none) := by
  rw [load, path?_eq, checkFile, h]
  cases nameFrom explicit fromEnvironment <;> rfl

/-- What is loaded comes from the bytes of the file, or there is no file and all keys have their
defaults. -/
theorem load_eq_ok {c : Config} {source : Option Path}
    (h : load fs current root explicit fromEnvironment = .ok (c, source)) :
    (∃ bytes, source = some (candidate root explicit fromEnvironment) ∧
      fs.read current (candidate root explicit fromEnvironment) = .ok bytes ∧
      ofBytes (candidate root explicit fromEnvironment) bytes = .ok c) ∨
    source = none ∧ c = {} := by
  rcases fs.isFile_cases current (candidate root explicit fromEnvironment) with
    ⟨hidden, -, hfile⟩ | ⟨bytes, -, hfile, hread⟩ | ⟨barrier, -, hfile, hread⟩ | ⟨-, hfile⟩
  · rw [load_of_unseen hfile] at h
    cases h
  · rw [load_of_file hfile hread] at h
    cases hbytes : ofBytes (candidate root explicit fromEnvironment) bytes with
    | error fault =>
        rw [hbytes] at h
        cases h
    | ok c' =>
        rw [hbytes] at h
        cases h
        exact .inl ⟨bytes, rfl, hread, hbytes⟩
  · rw [load_of_guarded hfile hread] at h
    cases h
  · rw [load_of_no_file hfile] at h
    split at h
    · cases h
    · cases h
      exact .inr ⟨rfl, rfl⟩

/-- Loading fails with a fault that is none of the configuration in these cases only. -/
theorem load_givenUp_iff :
    (load fs current root explicit fromEnvironment = .error fault ∧ ∀ f, fault ≠ .config f) ↔
      GivenUp fs current (candidate root explicit fromEnvironment) fault := by
  rcases fs.isFile_cases current (candidate root explicit fromEnvironment) with
    ⟨hidden, hconceals, hfile⟩ | ⟨bytes, hleads, hfile, hread⟩ |
      ⟨barrier, hguards, hfile, hread⟩ | ⟨hlacks, hfile⟩
  · rw [load_of_unseen hfile]
    constructor
    · rintro ⟨⟨⟩, -⟩
      exact .unseen hconceals
    · intro h
      cases h with
      | unseen hconceals' =>
          cases hconceals'.walk.symm.trans hconceals.walk
          exact ⟨rfl, by simp⟩
      | unusable hleads => cases hconceals.walk.symm.trans hleads.2
  · have herror : load fs current root explicit fromEnvironment = .error fault ↔
        ofBytes (candidate root explicit fromEnvironment) bytes = .error fault := by
      rw [load_of_file hfile hread]
      cases ofBytes (candidate root explicit fromEnvironment) bytes <;> simp [Except.map]
    rw [herror, ofBytes_error_iff]
    constructor
    · exact .unusable hleads
    · intro h
      cases h with
      | unseen hconceals => cases hconceals.walk.symm.trans hleads.2
      | unusable hleads' hunusable =>
          cases hleads'.2.symm.trans hleads.2
          exact hunusable
  · rw [load_of_guarded hfile hread]
    constructor
    · rintro ⟨⟨⟩, hother⟩
      exact absurd rfl (hother _)
    · intro h
      cases h with
      | unseen hconceals => cases hconceals.walk.symm.trans hguards.2
      | unusable hleads => cases hleads.2.symm.trans hguards.2
  · rw [load_of_no_file hfile]
    constructor
    · rintro ⟨hload, hother⟩
      split at hload
      · cases hload
        exact absurd rfl (hother _)
      · cases hload
    · intro h
      cases h with
      | unseen hconceals => exact absurd hconceals (hlacks.seen _)
      | unusable hleads => exact absurd hleads (hlacks.file _)

/-- A configuration is loaded or at fault itself, unless loading is given up. -/
theorem load_or_fault_iff :
    (∃ c path?, load fs current root explicit fromEnvironment = .ok (c, path?)) ∨
        (∃ f, load fs current root explicit fromEnvironment = .error (.config f)) ↔
      ∀ fault, ¬GivenUp fs current (candidate root explicit fromEnvironment) fault := by
  constructor
  · rintro (⟨c, path?, hload⟩ | ⟨f, hload⟩) fault hgiven
    · rw [(load_givenUp_iff.2 hgiven).1] at hload
      cases hload
    · obtain ⟨herror, hother⟩ := load_givenUp_iff.2 hgiven
      rw [herror] at hload
      cases hload
      exact hother f rfl
  · intro hnot
    cases hload : load fs current root explicit fromEnvironment with
    | ok loaded => exact .inl ⟨loaded.1, loaded.2, rfl⟩
    | error fault =>
        right
        by_contra hother
        have hgiven := load_givenUp_iff.1 ⟨hload, fun f hf => hother ⟨f, by rw [hf]⟩⟩
        exact hnot fault hgiven

end Config
end Bindery
