import Bindery.Config.Destination
import Bindery.Proofs.Config.Pattern
import Bindery.Proofs.Config.Sound
import Bindery.Proofs.Text.Blank

/-!
# Where a configuration publishes

The bucket of an accepted configuration has a scheme and a host, and its product is a segment.
So the book of a ref goes to a directory in that bucket which is named for the product and the
ref, and the product adds no slash, no white space and no control character to its name.

There is one exception.  The pattern of the product lets a newline follow the segment, and then
the newline is part of the directory.  `published_of_ofEntries` says all of this for every
configuration that is read from the entries of a mapping.
-/

namespace Bindery

/-! ## Clean characters -/

namespace CodePoint

/-- A control character. -/
def isControl (c : Char) : Bool := c.toNat < 0x20 || (0x7F ≤ c.toNat && c.toNat < 0xA0)

/-- The code point is no slash, no white space and no control character. -/
def IsClean (x : CodePoint) : Prop :=
  x ≠ '/' ∧ x.is Text.isBlank = false ∧ x.is isControl = false

end CodePoint

namespace Pattern

/-- The characters of a segment are visible ones of ASCII, and the slash is none of them. -/
theorem bounds_of_has {x : CodePoint} (h : segmentClass.Has x) :
    0x2D ≤ x.code ∧ x.code ≤ 0x7A ∧ x.code ≠ 0x2F := by
  simp [Text.CharClass.Has, segmentClass] at h
  omega

theorem isClean_of_has {x : CodePoint} (h : segmentClass.Has x) : x.IsClean := by
  obtain ⟨hfirst, hlast, hslash⟩ := bounds_of_has h
  refine ⟨fun hx => hslash (by rw [hx]; rfl), ?_⟩
  cases x with
  | half index => exact ⟨rfl, rfl⟩
  | char c =>
      simp only [CodePoint.code] at hfirst hlast
      simp only [CodePoint.is, Text.isBlank, CodePoint.isControl, Bool.or_eq_false_iff,
        Bool.and_eq_false_iff, decide_eq_false_iff_not, beq_eq_false_iff_ne]
      omega

/-! ## Buckets without the slashes at their end -/

theorem IsAddress.trimSlashes {s : Text} (h : IsAddress s) : IsAddress (Text.trimSlashes s) := by
  obtain ⟨letter, scheme, host, rest, rfl, hletter, hscheme, hhost⟩ := h
  have hclass : ¬(host == CodePoint.char '/') = true := by simpa using hhost
  refine ⟨letter, scheme, host, Text.trimSlashes rest, ?_, hletter, hscheme, hhost⟩
  exact Text.trimEnd_append_cons (· == CodePoint.char '/') hclass (letter :: scheme ++ "://") rest

end Pattern

/-! ## Destinations -/

namespace Config

open Pattern (IsAddress IsSegment)

/-- A configuration publishes to its bucket, in directories named for its product. -/
structure Published (c : Config) : Prop where
  /-- The bucket has a scheme and a host. -/
  bucket : IsAddress c.bucket
  /-- The product is a segment of clean characters, but a newline may follow it. -/
  product : ∃ body : Text, IsSegment body ∧ (∀ x ∈ body, x.IsClean) ∧
    (c.product = body ∨ c.product = body ++ "\n")
  /-- The product is a segment itself unless it ends with a newline. -/
  whole : IsSegment c.product ↔ c.product.getLast? ≠ some (.char '\n')
  /-- A blank ref has no directory. -/
  blank : ∀ ref, Text.trim ref = [] → c.destination? ref = none
  /-- The directory of any other ref is in the bucket, less the slashes at the end of that. -/
  directory : ∀ ref, Text.trim ref ≠ [] → ∃ bucket slashes : Text,
    c.bucket = bucket ++ slashes ∧ (∀ x ∈ slashes, x = '/') ∧
      bucket.getLast? ≠ some (.char '/') ∧ IsAddress bucket ∧
      c.destination? ref = some (bucket ++ "/" ++ c.product ++ "/" ++ Text.trim ref ++ "/")

theorem accepts_of_problem? {p : Pattern} {s : Text}
    (h : (Rule.matching p).problem? (.text s) = none) : p.accepts s = true := by
  rw [Rule.problem?] at h
  split at h
  case isTrue haccepts => exact haccepts
  case isFalse => cases h

theorem directory_of_isAddress {c : Config} (h : IsAddress c.bucket) {ref : Text}
    (href : Text.trim ref ≠ []) : ∃ bucket slashes : Text,
    c.bucket = bucket ++ slashes ∧ (∀ x ∈ slashes, x = '/') ∧
      bucket.getLast? ≠ some (.char '/') ∧ IsAddress bucket ∧
      c.destination? ref = some (bucket ++ "/" ++ c.product ++ "/" ++ Text.trim ref ++ "/") := by
  obtain ⟨slashes, hbucket, hslashes⟩ :=
    Text.exists_trimEnd_append (· == CodePoint.char '/') c.bucket
  refine ⟨Text.trimSlashes c.bucket, slashes, hbucket, fun x hx => eq_of_beq (hslashes x hx), ?_,
    h.trimSlashes, ?_⟩
  · intro hlast
    exact Text.getLast?_trimEnd _ hlast (beq_self_eq_true _)
  · have hempty : (Text.trim ref).isEmpty = false := by simpa using href
    simp only [destination?, hempty, Bool.false_eq_true, if_false, publicDirectory]

theorem IsSound.published {c : Config} (h : c.IsSound) : c.Published := by
  have hbucket : IsAddress c.bucket :=
    (Pattern.accepts_address_iff c.bucket).1 (accepts_of_problem? (h .bucket))
  obtain ⟨body, hbody, hproduct⟩ :=
    (Pattern.accepts_segment_iff c.product).1 (accepts_of_problem? (h .product))
  constructor
  case bucket => exact hbucket
  case product =>
    exact ⟨body, hbody, fun x hx => Pattern.isClean_of_has (hbody.2 x hx), hproduct⟩
  case whole =>
    constructor
    · exact IsSegment.getLast?_ne
    · intro hlast
      rcases hproduct with heq | heq
      · rwa [heq]
      · rw [heq] at hlast
        exact absurd (List.getLast?_concat ..) hlast
  case blank =>
    intro ref href
    simp only [destination?, href, List.isEmpty_nil, if_true]
  case directory => exact fun ref href => directory_of_isAddress hbucket href

/-- An accepted configuration publishes to its bucket, in directories named for its product. -/
theorem published_of_ofEntries {keys : List Value} {value? : Key → Option Value} {c : Config}
    (h : ofEntries keys value? = .ok c) : c.Published :=
  (isSound_of_ofEntries h).published

theorem published_of_newline :
    let entries : List (Value × Value) :=
      [(.text "product", .text "butler\n"), (.text "bucket", .text "gs://b//")]
    let c : Config := { bucket := "gs://b//", product := "butler\n" }
    ofEntries (entries.map Prod.fst) (fun k => Value.lookup k.name entries) = .ok c ∧
      c.Published ∧ ¬IsSegment c.product ∧
      c.destination? " v1" = some (.ofString "gs://b/butler\n/v1/") := by
  intro entries c
  have haccepted :
      ofEntries (entries.map Prod.fst) (fun k => Value.lookup k.name entries) = .ok c := rfl
  have hpublished : c.Published := published_of_ofEntries haccepted
  refine ⟨haccepted, hpublished, fun hsegment => ?_, by decide⟩
  exact hpublished.whole.1 hsegment rfl

end Config
end Bindery
