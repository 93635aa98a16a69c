import Bindery.Proofs.FileSystem.Spelling
import Bindery.Pipeline

/-!
# The directory of the modules

The modules of the program that builds the book are below the directory where the package manager
installs, at the path that the configuration gives (`modulesDirectory`).  If that path is
relative, the directory has the root of the base and the components of both texts in a row, and
nothing else decides it (`modulesDirectory_eq_iff`).

So it is written in one way only, other spellings of the two texts lead to it as well, and to go
down in two steps is to go down in one (`modulesDirectory_meant`).
-/

namespace Bindery

open Bindery.Path (parse rootOf components IsRooted Respelled)

/-- The directory with the modules below a base, as it is written. -/
def modulesDirectory (c : Config) (base : Text) : Except Settings.Fault Text :=
  ((Settings.ofConfig c).nestedModules base).map Path.text

/-- The configuration with another path of the modules. -/
def Config.nesting (c : Config) (nested : Text) : Config := { c with nestedModulesPath := nested }

variable {c : Config} {base base' nested nested' inner : Text}

theorem modulesDirectory_eq (c : Config) (base : Text) :
    modulesDirectory c base = .ok (parse base / parse c.nestedModulesPath).text := rfl

theorem hasNames_below (base nested : Text) : (parse base / parse nested).HasNames :=
  (Path.hasNames_parse base).div (Path.hasNames_parse nested)

/-- The directory below a base is told by the root of the base and the components of both. -/
theorem modulesDirectory_eq_iff (h : ¬IsRooted nested) (h' : ¬IsRooted nested') :
    modulesDirectory (c.nesting nested') base' = modulesDirectory (c.nesting nested) base ↔
      rootOf base' = rootOf base ∧
        components base' ++ components nested' = components base ++ components nested := by
  have htexts := Path.text_inj (hasNames_below base' nested') (hasNames_below base nested)
  rw [modulesDirectory_eq, modulesDirectory_eq, Except.ok.injEq]
  refine htexts.trans ?_
  rw [Path.parse_div_parse base' h', Path.parse_div_parse base h, Path.mk.injEq]

/-- A directory is that of the modules, below a base. -/
structure IsModulesDirectory (c : Config) (base dir : Text) : Prop where
  /-- Its components are those of the base and of the path of the modules. -/
  components : components dir = components base ++ components c.nestedModulesPath
  /-- It has a root if the base has one, and the same. -/
  rooted : (IsRooted dir ↔ IsRooted base) ∧ rootOf dir = rootOf base
  /-- It is written as a path is written. -/
  normal : (parse dir).text = dir
  /-- It is what root and components mean, and nothing else. -/
  meant : ∀ base' nested', ¬IsRooted nested' →
    (modulesDirectory (c.nesting nested') base' = .ok dir ↔ rootOf base' = rootOf base ∧
      Path.components base' ++ Path.components nested' =
        Path.components base ++ Path.components c.nestedModulesPath)
  /-- Other spellings of the base and of the path lead to it. -/
  respelled : ∀ base' nested', Respelled base base' → Respelled c.nestedModulesPath nested' →
    modulesDirectory (c.nesting nested') base' = .ok dir
  /-- What is below it is as well below the base. -/
  staged : ∀ inner, ¬IsRooted inner →
    modulesDirectory (c.nesting (parse c.nestedModulesPath / parse inner).text) base =
        modulesDirectory (c.nesting inner) dir ∧
      (c.nestedModulesPath ≠ [] →
        modulesDirectory (c.nesting (c.nestedModulesPath ++ "/" ++ inner)) base =
          modulesDirectory (c.nesting inner) dir)

/-! ## Going down in steps -/

/-- What is below a directory that is written is below the directory. -/
theorem modulesDirectory_text (p : Path) (hp : p.HasNames) :
    modulesDirectory (c.nesting nested) p.text = .ok (p / parse nested).text := by
  rw [modulesDirectory_eq, Path.parse_text hp]
  rfl

theorem modulesDirectory_joined (c : Config) (base nested inner : Text) :
    modulesDirectory (c.nesting (parse nested / parse inner).text) base =
      modulesDirectory (c.nesting inner) (parse base / parse nested).text := by
  rw [modulesDirectory_text _ (hasNames_below base nested), Path.div_div, modulesDirectory_eq,
    Config.nesting, Path.parse_text (hasNames_below nested inner)]

/-- A path that is not empty may be joined with another one as a text. -/
theorem parse_joined (hne : nested ≠ []) (h : ¬IsRooted nested) (hinner : ¬IsRooted inner) :
    parse (nested ++ "/" ++ inner) = parse nested / parse inner := by
  have hrooted : ¬IsRooted (nested ++ "/" ++ inner) := by
    obtain ⟨x, rest, rfl⟩ := List.exists_cons_of_ne_nil hne
    exact h
  rw [Path.parse_div_parse nested hinner, Path.parse_eq, Path.rootOf_eq_relative hrooted,
    Path.rootOf_eq_relative h, List.append_assoc]
  exact congrArg _ (Path.components_append_slash nested inner)

/-! ## What the directory means -/

/-- For every base and every relative path there is a directory of the modules, and it depends on
what both mean. -/
theorem modulesDirectory_meant (c : Config) (base : Text) (h : ¬IsRooted c.nestedModulesPath) :
    ∃ dir, modulesDirectory c base = .ok dir ∧ IsModulesDirectory c base dir := by
  have hbelow := Path.parse_div_parse base h
  have hnames := hasNames_below base c.nestedModulesPath
  have hroot : rootOf (parse base / parse c.nestedModulesPath).text = rootOf base := by
    rw [Path.rootOf_text hnames, hbelow]
  refine ⟨_, modulesDirectory_eq c base, ?_⟩
  constructor
  case components => rw [Path.components_text hnames, hbelow]
  case rooted =>
    rw [Path.isRooted_iff, Path.isRooted_iff, hroot]
    exact ⟨Iff.rfl, rfl⟩
  case normal => rw [Path.parse_text hnames]
  case meant =>
    intro base' nested' h'
    exact modulesDirectory_eq_iff (c := c) h h'
  case respelled =>
    intro base' nested' hbase hnested
    rw [modulesDirectory_eq, hbase.parse_eq, Config.nesting, hnested.parse_eq]
  case staged =>
    intro inner hinner
    have hjoined := modulesDirectory_joined c base c.nestedModulesPath inner
    refine ⟨hjoined, fun hne => ?_⟩
    rw [← hjoined, modulesDirectory_eq, modulesDirectory_eq, Config.nesting, Config.nesting,
      parse_joined hne h hinner, Path.parse_text (hasNames_below _ _)]

/-- A base with two slashes in front and `..` in it, and a path with a `.` and slashes to spare. -/
theorem modulesDirectory_meant_of_slashes :
    let c : Config := { nestedModulesPath := "./lib//modules/" }
    let base : Text := "//srv/../x/."
    let dir : Text := "//srv/../x/lib/modules"
    ¬IsRooted c.nestedModulesPath ∧ modulesDirectory c base = .ok dir ∧
      IsModulesDirectory c base dir ∧
      modulesDirectory (c.nesting "./lib/./modules") "//srv//../x/." = .ok dir ∧
      modulesDirectory (c.nesting "./lib//modules//./npm/") base = .ok (dir ++ "/npm") := by
  intro c base dir
  have hrelative : ¬IsRooted c.nestedModulesPath := by decide +kernel
  obtain ⟨found, hfound, hmeant⟩ := modulesDirectory_meant c base hrelative
  have hdir : found = dir := by
    have hwritten : (parse base / parse c.nestedModulesPath).text = dir := by decide +kernel
    rw [modulesDirectory_eq, hwritten] at hfound
    exact (Except.ok.inj hfound).symm
  subst hdir
  refine ⟨hrelative, hfound, hmeant, ?_, ?_⟩
  · exact (hmeant.meant "//srv//../x/." "./lib/./modules" (by decide +kernel)).2
      ⟨by decide +kernel, by decide +kernel⟩
  · have hbelow : (parse dir / parse "./npm/").text = dir ++ "/npm" := by decide +kernel
    have hstaged := (hmeant.staged "./npm/" (by decide +kernel)).2 (by decide +kernel)
    exact hstaged.trans (congrArg Except.ok hbelow)

end Bindery
