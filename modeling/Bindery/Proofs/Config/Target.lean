import Bindery.Config.Destination
import Bindery.Proofs.Text.Blank

/-!
# Targets of uploads

The directories of two refs are one only if the refs are one, less the white space around them:
a directory is a fixed front, the ref and a slash, so the ref is read back from it.  Slashes at
the end of the bucket or of the directory of the book change nothing, and the files to upload
end with one slash and an asterisk.  `uploadTargets` says so for every configuration.
-/

namespace Bindery

/-! ## Slashes and white space -/

namespace Text

theorem trimSlashes_append_replicate (s : Text) (n : Nat) :
    trimSlashes (s ++ List.replicate n (.char '/')) = trimSlashes s := by
  refine trimEnd_append_of_all (fun x hx => ?_) s
  rw [List.eq_of_mem_replicate hx]
  rfl

/-- The text is white space and nothing else. -/
def IsBlank (s : Text) : Prop := ∀ x ∈ s, x.is isBlank = true

instance (s : Text) : Decidable s.IsBlank := inferInstanceAs (Decidable (∀ x ∈ s, _))

theorem trim_eq_nil_iff (s : Text) : trim s = [] ↔ s.IsBlank := by
  rw [trim, trimBoth, trimEnd_eq_nil_iff, IsBlank]
  constructor
  · intro h x hx
    rw [← List.takeWhile_append_dropWhile (p := CodePoint.is isBlank) (l := s),
      List.mem_append] at hx
    exact hx.elim (fun hx => List.mem_takeWhile_imp hx) (h x)
  · exact fun h x hx => h x ((List.dropWhile_sublist _).subset hx)

theorem getLast?_trimSlashes (s : Text) : (trimSlashes s).getLast? ≠ some (.char '/') :=
  fun h => getLast?_trimEnd (· == CodePoint.char '/') h rfl

end Text

/-! ## Directories -/

namespace Config

variable {c : Config} {ref ref' directory : Text}

/-- What the directories of all refs start with. -/
def front (c : Config) : Text := Text.trimSlashes c.bucket ++ "/" ++ c.product ++ "/"

/-- What a directory has between its front and the slash at its end, if it has both. -/
def refIn (c : Config) (directory : Text) : Option Text :=
  (directory.dropPrefix? c.front).bind fun rest => rest.dropSuffix? (Text.ofString "/")

theorem refIn_eq_some_iff : c.refIn directory = some ref ↔ directory = c.front ++ ref ++ "/" := by
  simp only [refIn, Option.bind_eq_some_iff, List.dropPrefix?_eq_some_iff,
    List.dropSuffix?_eq_some_iff, beq_iff_eq]
  constructor
  · rintro ⟨rest, ⟨front, rfl, rfl⟩, slash, rfl, rfl⟩
    exact (List.append_assoc ..).symm
  · rintro rfl
    exact ⟨ref ++ "/", ⟨c.front, List.append_assoc .., rfl⟩, "/", rfl, rfl⟩

theorem destination?_of_not_isBlank (h : ¬ref.IsBlank) :
    c.destination? ref = some (c.front ++ Text.trim ref ++ "/") := by
  have hempty : (Text.trim ref).isEmpty = false := by simpa [Text.trim_eq_nil_iff] using h
  simp only [destination?, hempty, Bool.false_eq_true, if_false]
  rfl

theorem destination?_of_isBlank (h : ref.IsBlank) : c.destination? ref = none := by
  simp only [destination?, (Text.trim_eq_nil_iff ref).2 h, List.isEmpty_nil, if_true]

/-- The ref of a directory is read back, less the white space around it. -/
theorem refIn_of_destination? (h : c.destination? ref = some directory) :
    c.refIn directory = some (Text.trim ref) := by
  by_cases href : ref.IsBlank
  · rw [destination?_of_isBlank href] at h
    cases h
  · rw [destination?_of_not_isBlank href] at h
    exact refIn_eq_some_iff.2 (Option.some.inj h).symm

theorem destination?_inj (href : ¬ref.IsBlank) (href' : ¬ref'.IsBlank) :
    c.destination? ref = c.destination? ref' ↔ Text.trim ref = Text.trim ref' := by
  constructor
  · intro h
    have hdirectory := destination?_of_not_isBlank (c := c) href
    have hback := refIn_of_destination? hdirectory
    rw [h] at hdirectory
    exact Option.some.inj (hback.symm.trans (refIn_of_destination? hdirectory))
  · intro h
    rw [destination?_of_not_isBlank href, destination?_of_not_isBlank href', h]

/-! ## Other spellings -/

/-- The configuration with slashes added to its bucket and to the directory of its book. -/
def withSlashes (c : Config) (m n : Nat) : Config :=
  { c with
    bucket := c.bucket ++ List.replicate m (.char '/')
    outputDir := c.outputDir ++ List.replicate n (.char '/') }

theorem destination?_withSlashes (c : Config) (m n : Nat) (ref : Text) :
    (c.withSlashes m n).destination? ref = c.destination? ref := by
  simp only [destination?, withSlashes, publicDirectory, Text.trimSlashes_append_replicate]

theorem source_withSlashes (c : Config) (m n : Nat) : (c.withSlashes m n).source = c.source := by
  simp only [source, withSlashes, allFiles, Text.trimSlashes_append_replicate]

theorem uploadCommand?_withSlashes (c : Config) (m n : Nat) (ref : Text) :
    (c.withSlashes m n).uploadCommand? ref = c.uploadCommand? ref := by
  rw [uploadCommand?, destination?_withSlashes, source_withSlashes]
  rfl

end Config

/-! ## Targets -/

open Settings (ofConfig)

/-- Where the books of a configuration go, and the commands that upload them. -/
structure Config.UploadTargets (c : Config) : Prop where
  /-- A ref has no directory and no command exactly if it is blank. -/
  blank : ∀ ref : Text,
    ((ofConfig c).destination (.text ref) = .error .blankRef ↔ ref.IsBlank) ∧
    ((ofConfig c).uploadCommand (.text ref) = .error .blankRef ↔ ref.IsBlank)
  /-- The directory of a ref that is not blank starts with the front of the configuration and
  ends with a slash, and the ref stands in between. -/
  directory : ∀ ref : Text, ¬ref.IsBlank → ∃ directory,
    (ofConfig c).destination (.text ref) = .ok directory ∧
    directory = c.front ++ Text.trim ref ++ "/" ∧ c.refIn directory = some (Text.trim ref)
  /-- Two refs have one directory exactly if they are one, less the white space around them. -/
  distinct : ∀ ref ref' : Text, ¬ref.IsBlank → ¬ref'.IsBlank →
    ((ofConfig c).destination (.text ref) = (ofConfig c).destination (.text ref') ↔
      Text.trim ref = Text.trim ref')
  /-- Slashes at the end of the bucket and of the directory of the book have no part in this. -/
  slashes : ∀ (m n : Nat) (ref : Text),
    (ofConfig (c.withSlashes m n)).destination (.text ref) =
      (ofConfig c).destination (.text ref) ∧
    (ofConfig (c.withSlashes m n)).uploadCommand (.text ref) =
      (ofConfig c).uploadCommand (.text ref)
  /-- A command uploads all files of a directory without slashes at its end. -/
  files : ∀ ref : Text, ¬ref.IsBlank → ∃ book directory : Text,
    (ofConfig c).destination (.text ref) = .ok directory ∧
    (ofConfig c).uploadCommand (.text ref) = .ok (([c.gsutil, "-m", "cp", "-r", "-a", c.acl,
      book ++ "/*", directory] : List Text).map .text) ∧
    book.getLast? ≠ some (.char '/')

namespace Config

/-- The books of different refs never go to one place. -/
theorem uploadTargets (c : Config) : c.UploadTargets := by
  constructor
  case blank =>
    intro ref
    rw [Settings.destination_ofConfig, Settings.uploadCommand_ofConfig, uploadCommand?]
    by_cases href : ref.IsBlank
    · simp [destination?_of_isBlank href, href]
    · simp [destination?_of_not_isBlank href, href]
  case directory =>
    intro ref href
    refine ⟨_, ?_, rfl, refIn_eq_some_iff.2 rfl⟩
    rw [Settings.destination_ofConfig, destination?_of_not_isBlank href]
  case distinct =>
    intro ref ref' href href'
    rw [← destination?_inj href href', Settings.destination_ofConfig, Settings.destination_ofConfig,
      destination?_of_not_isBlank href, destination?_of_not_isBlank href']
    simp
  case slashes =>
    intro m n ref
    rw [Settings.destination_ofConfig, Settings.destination_ofConfig,
      Settings.uploadCommand_ofConfig, Settings.uploadCommand_ofConfig, destination?_withSlashes,
      uploadCommand?_withSlashes]
    exact ⟨rfl, rfl⟩
  case files =>
    intro ref href
    refine ⟨Text.trimSlashes c.outputDir, c.front ++ Text.trim ref ++ "/", ?_, ?_,
      Text.getLast?_trimSlashes _⟩
    · rw [Settings.destination_ofConfig, destination?_of_not_isBlank href]
    · rw [Settings.uploadCommand_ofConfig, uploadCommand?, destination?_of_not_isBlank href]
      rfl

/-- White space of any kind is taken off a ref, and all slashes off a bucket and a directory. -/
theorem uploadTargets_of_slashes :
    let c : Config := { bucket := "gs://b//", outputDir := "///" }
    let ref : Text := "\u2003v 1\n"
    ¬ref.IsBlank ∧ (ofConfig c).destination (.text ref) = .ok (.ofString "gs://b/butler/v 1/") ∧
      c.refIn (.ofString "gs://b/butler/v 1/") = some (.ofString "v 1") ∧
      ∃ book directory : Text, (ofConfig c).uploadCommand (.text ref) =
        .ok (([c.gsutil, "-m", "cp", "-r", "-a", c.acl, book ++ "/*", directory] : List Text).map
          .text) ∧ book.getLast? ≠ some (.char '/') := by
  intro c ref
  have href : ¬ref.IsBlank := by decide +kernel
  obtain ⟨directory, hdestination, hdirectory, hback⟩ := (uploadTargets c).directory ref href
  obtain ⟨book, directory', -, hcommand, hbook⟩ := (uploadTargets c).files ref href
  have htrim : Text.trim ref = .ofString "v 1" := by decide +kernel
  have hplace : directory = .ofString "gs://b/butler/v 1/" := by
    rw [hdirectory]
    decide +kernel
  subst hplace
  exact ⟨href, hdestination, htrim ▸ hback, book, directory', hcommand, hbook⟩

end Config
end Bindery
