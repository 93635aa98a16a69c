import Bindery.Proofs.CommandLine.Narration
import Bindery.Proofs.CommandLine.Unloaded
import Bindery.Proofs.CommandLine.UploadPath
import Bindery.Proofs.Config.Exact
import Bindery.Proofs.FileSystem.Bytes
import Bindery.Proofs.Pipeline.Summary

/-!
# Two ways to pin a version

The version of the pinned dependency is given on the command line or in the configuration file.
`GivenBoth` puts a plan of the first kind beside one of the second kind in surroundings that are
else the same.  A version that is not blank makes the two runs one and the same, and an empty one
is rejected by both.  A version of white space is rejected on the command line only
(`compatVersion_sources`).
-/

namespace Bindery

namespace Config

variable {keys keys' : List Value} {value? value?' : Key → Option Value} {version : Text}
  {bytes : List UInt8} {c : Config}

/-! ## Mappings in files -/

/-- A file holds a mapping, by its keys and the value of each key.  No document and null count as
the empty one. -/
inductive Holds (bytes : List UInt8) : List Value → (Key → Option Value) → Prop where
  | empty (h : documentIn bytes = .ok none) : Holds bytes [] fun _ => none
  | null {d : Yaml.Document} {node : Yaml.NodeId} (h : documentIn bytes = .ok (some d))
      (hroot : d.rootCell = .leaf ⟨.null, node⟩) : Holds bytes [] fun _ => none
  | mapping {d : Yaml.Document} {entries : List (Yaml.Atom × Yaml.NodeId)}
      (h : documentIn bytes = .ok (some d)) (hroot : d.rootCell = .mapping entries) :
      Holds bytes (entries.map fun entry => entry.1.value) (given d entries)

theorem Holds.ofBytes (h : Holds bytes keys value?) (path : Path) :
    ofBytes path bytes = (ofEntries keys value?).mapError (ofRefusal path) := by
  cases h with
  | empty h =>
      rw [ofBytes_of_none path h]
      rfl
  | null h hroot =>
      rw [ofBytes_of_some path h, ofDocument, hroot]
      rfl
  | mapping h hroot => rw [ofBytes_of_some path h, ofDocument_mapping path hroot]

/-- A mapping is another one with the version of the pinned dependency set. -/
structure Pins (keys : List Value) (value? : Key → Option Value) (version : Text)
    (keys' : List Value) (value?' : Key → Option Value) : Prop where
  keys : ∀ key, key ∈ keys' ↔ key = .text Key.compatVersion.name ∨ key ∈ keys
  version : value?' .compatVersion = some (.text version)
  others : ∀ k, k ≠ .compatVersion → value?' k = value? k

theorem problem?_compatVersion (version : Text) :
    Key.compatVersion.rule.problem? (.text version) = none ↔ version ≠ [] := by
  cases version <;> simp [Key.rule, Rule.problem?]

theorem Pins.violations_eq_nil_iff (h : Pins keys value? version keys' value?')
    (haccepted : ofEntries keys value? = .ok c) :
    violations keys' value?' = [] ↔ version ≠ [] := by
  obtain ⟨hkeys, hrules⟩ :=
    Config.violations_eq_nil_iff.1 (ofEntries_eq_ok_iff.1 haccepted).1
  rw [Config.violations_eq_nil_iff]
  constructor
  · rintro ⟨-, hrules'⟩
    exact (problem?_compatVersion version).1 (hrules' _ _ h.version)
  · intro hne
    refine ⟨fun key hkey => ?_, fun k v hv => ?_⟩
    · rcases (h.keys key).1 hkey with rfl | hkey
      · exact isKey_name .compatVersion
      · exact hkeys key hkey
    · by_cases hk : k = .compatVersion
      · subst hk
        rw [h.version] at hv
        cases hv
        exact (problem?_compatVersion version).2 hne
      · exact hrules k v ((h.others k hk).symm.trans hv)

/-- A mapping with a version set is accepted if the version is not empty. -/
theorem Pins.ofEntries (h : Pins keys value? version keys' value?')
    (haccepted : ofEntries keys value? = .ok c) (hne : version ≠ []) :
    Config.ofEntries keys' value?' = .ok (c.withCompatVersion (some version)) := by
  have hnil := (h.violations_eq_nil_iff haccepted).2 hne
  have hok : Config.ofEntries keys' value?' = .ok (({} : Config).putAll value?') :=
    ofEntries_eq_ok_iff.2 ⟨hnil, rfl⟩
  rw [hok]
  refine congrArg Except.ok (ext_get fun k => ?_)
  change _ = (c.put .compatVersion (.text version)).get k
  rw [get_of_ofEntries hok k]
  by_cases hk : k = .compatVersion
  · subst hk
    rw [h.version, get_put rfl]
    rfl
  · rw [h.others k hk, get_put_of_ne hk, get_of_ofEntries haccepted k]

theorem Pins.ofEntries_of_nil (h : Pins keys value? [] keys' value?')
    (haccepted : Config.ofEntries keys value? = .ok c) :
    ∃ refusal, Config.ofEntries keys' value?' = .error refusal := by
  cases hload : Config.ofEntries keys' value?' with
  | error refusal => exact ⟨refusal, rfl⟩
  | ok c' =>
      have hnil := (ofEntries_eq_ok_iff.1 hload).1
      exact absurd rfl ((h.violations_eq_nil_iff haccepted).1 hnil)

end Config

/-! ## Dry shells -/

namespace Shell

variable {sh sh' : Shell}

/-- Dry shells do the same if their paths have the same resolutions. -/
theorem related_of_dry (dry : sh.context.dryRun = true) (hcontext : sh'.context = sh.context)
    (htarget : sh'.directory = sh.directory) :
    Related (fun act act' => act' = act) sh sh' where
  pure _ := rfl
  throw _ := rfl
  get := rfl
  bind := by
    rintro α β act act' f f' rfl hf
    rw [funext hf]
  within := by
    rintro α body body' target rfl
    rfl
  words words capture := by
    have hattempt : ∀ argv, sh'.attempt argv capture = sh.attempt argv capture := by
      intro argv
      funext s
      exact (run_attempt_of_dry (hcontext ▸ dry) argv capture s).trans
        (run_attempt_of_dry dry argv capture s).symm
    unfold executeWords
    cases Value.texts? words with
    | some argv =>
        dsimp only
        unfold execute
        rw [hattempt]
    | none =>
        funext s
        change (sh'.executeUnnamed words capture).run s = (sh.executeUnnamed words capture).run s
        rw [run_executeUnnamed, run_executeUnnamed, hcontext, dry]
        rfl
  target path := by
    funext s
    change (sh'.target path).run s = (sh.target path).run s
    cases hdir : sh.directory s.cwd path with
    | error fault =>
        rw [sh.run_target_of_error s hdir, sh'.run_target_of_error s (htarget ▸ hdir)]
    | ok dir => rw [sh.run_target_of_ok s hdir, sh'.run_target_of_ok s (htarget ▸ hdir)]
  skipped := rfl
  ci := by rw [hcontext]
  refName := by rw [hcontext]

/-- The event that a dry run logs for a command. -/
def IsPlanned (e : Event) : Prop := e.action = Text.ofString "dry-run"

/-- A dry run of the pipeline plans a command, whatever it comes to. -/
theorem exists_isPlanned (dry : sh.context.dryRun = true) (c : Config) (s : Session) :
    ∃ e ∈ ((sh.runBook (.ofConfig c)).run s).2.machine.events, IsPlanned e := by
  obtain ⟨parts, h⟩ := exists_proceeds sh c Stage.all s
  change Proceeds sh c s Stage.all parts ((sh.runBook (.ofConfig c)).run s) at h
  generalize (sh.runBook (.ofConfig c)).run s = run at h ⊢
  have hfirst : (sh.perform (.ofConfig c) .printVersions).run s =
      (.ok { stage := .printVersions },
        recorded [c.npm, "version"] (dryResult false)
          (s.logged (dryEvent [c.npm, "version"] s.cwd))) := by
    have hrun := run_execute_of_zero
      (run_attempt_of_dry dry [c.npm, Text.ofString "version"] false s) rfl
    change ((sh.run ([c.npm, Text.ofString "version"].map .text) >>= _ : Act _)).run s = _
    rw [Shell.run, executeWords_texts, Act.run_bind_of_ok hrun]
    rfl
  cases h with
  | failed hperform =>
      rw [hfirst] at hperform
      cases hperform
  | passed hperform hsegment rest =>
      rw [hfirst] at hperform
      cases hperform
      obtain ⟨events, hevents, -⟩ := rest.events
      refine ⟨dryEvent [c.npm, "version"] s.cwd, ?_, rfl⟩
      dsimp only at hevents ⊢
      rw [hevents]
      simp [Session.logged, Machine.logged, recorded]

end Shell

namespace CommandLine

variable {s s' : Surroundings} {r : Request} {c : Config} {v : Text} {json : Bool}
  {argv argv' : List Text}

/-! ## Surroundings -/

/-- Surroundings that are the same, but for the bytes of files and for what children do. -/
structure SameTree (s s' : Surroundings) : Prop where
  files : s'.world.files.withoutBytes = s.world.files.withoutBytes
  current : s'.world.current = s.world.current
  environment : s'.environment = s.environment
  now : s'.now = s.now
  devices : s'.devices = s.devices

/-- A request finds a mapping in its configuration file. -/
def Finds (s : Surroundings) (r : Request) (keys : List Value) (value? : Key → Option Value) :
    Prop :=
  ∃ bytes, s.world.files.Leads s.world.current (candidate s r) bytes ∧
    Config.Holds bytes keys value?

/-- The request to plan the pipeline with a version, with the options of another request in
front. -/
def planWith (r : Request) (version : VersionOption) (json : Bool) : Request :=
  { r with task := .plan version json }

/-- The configuration files of two surroundings hold an accepted mapping and the same mapping
with a version of the pinned dependency. -/
structure GivenBoth (s s' : Surroundings) (r : Request) (c : Config) (v : Text) : Prop
    extends SameTree s s' where
  accepted : ∃ keys value? keys' value?', Finds s r keys value? ∧
    Config.ofEntries keys value? = .ok c ∧ Finds s' r keys' value?' ∧
    Config.Pins keys value? v keys' value?'

/-- A run fails before it plans a command. -/
structure Rejects (s : Surroundings) (r : Request) (o : Outcome) : Prop where
  exit : o.exit ≠ exitOk
  unplanned : ∀ e ∈ noted s r, ¬Shell.IsPlanned e

theorem loaded_of_finds {keys : List Value} {value? : Key → Option Value}
    (h : Finds s r keys value?) :
    loaded s r = ((Config.ofEntries keys value?).mapError (Config.ofRefusal (candidate s r))).map
      fun c => (c, some (candidate s r)) := by
  obtain ⟨bytes, hleads, hholds⟩ := h
  rw [loaded, Config.load_of_leads hleads, hholds.ofBytes]
  rfl

theorem SameTree.resolve (h : SameTree s s') (p : Path) :
    s'.world.files.resolve s'.world.current p = s.world.files.resolve s.world.current p := by
  rw [← s'.world.files.resolve_withoutBytes, ← s.world.files.resolve_withoutBytes, h.files,
    h.current]

theorem SameTree.directory (h : SameTree s s') (r' : Request) (c' : Config) :
    (shellOf s' r' c').directory = (shellOf s r c).directory := by
  funext start path
  change (s'.world.files.resolve s'.world.current (start / path)).mapError _ = _
  rw [h.resolve]
  rfl

theorem SameTree.context (h : SameTree s s') (r : Request) : context s' r = context s r := by
  unfold CommandLine.context
  rw [h.environment, h.now, h.current]

/-- A plan in one of the surroundings is a plan in the other. -/
theorem SameTree.runPipeline (h : SameTree s s') (r : Request)
    (dry : (CommandLine.context s r).dryRun = true) (c : Config) (m : Machine) :
    runPipeline s' (CommandLine.context s r) c m =
      runPipeline s (CommandLine.context s r) c m := by
  have hcontext : (shellOf s' r c).context = (shellOf s r c).context := h.context r
  have hrelated : Shell.Related (fun act act' => act' = act) (shellOf s r c) (shellOf s' r c) :=
    Shell.related_of_dry dry hcontext (h.directory r c)
  have hbook := hrelated.runBook (fun _ => rfl) (.ofConfig c)
  have hopen : (shellOf s' r c).openAt none m = (shellOf s r c).openAt none m := by
    rw [Shell.openAt_eq, Shell.openAt_eq, hcontext]
    exact congrArg _ (h.resolve _)
  simp only [shellOf, h.context r] at hbook hopen
  simp only [CommandLine.runPipeline, hbook, hopen]

/-! ## Requests for a plan -/

/-- The version of a request has no part in its context and in how its task starts. -/
theorem context_planWith (s : Surroundings) (r : Request) (version version' : VersionOption)
    (json : Bool) :
    context s (planWith r version json) = context s (planWith r version' json) := rfl

theorem pinnedVersion_absent : pinnedVersion .absent = .ok none := rfl

theorem pinnedVersion_of_blank (h : Text.trim v = []) :
    pinnedVersion (.version v) = .error blankVersion := by
  simp [pinnedVersion, h]

theorem pinnedVersion_of_ne_nil (h : Text.trim v ≠ []) :
    pinnedVersion (.version v) = .ok (some v) := by
  simp [pinnedVersion, h]

theorem Rejects.of_follow {f : Failure} {m : Machine} (hparse : Request.parse argv = .ok r)
    (h : follow s (context s r) r = (.error f, m))
    (hunplanned : ∀ e ∈ m.events, ¬Shell.IsPlanned e) :
    Rejects s r (run s argv) := by
  have hfailure : failure? s r = some f := by simp only [failure?, h, deliver]
  constructor
  · rcases (run_narrates (s := s) hparse).failure with ⟨-, hnone⟩ | ⟨hexit, -⟩
    · rw [hfailure] at hnone
      cases hnone
    · exact hexit
  · unfold noted
    rwa [h]

/-- A blank version is rejected on the command line. -/
theorem rejects_of_blank {path : Option Path}
    (hparse : Request.parse argv = .ok (planWith r (.version v) json))
    (hload : loaded s r = .ok (c, path)) (hblank : Text.trim v = []) :
    Rejects s (planWith r (.version v) json) (run s argv) :=
  .of_follow hparse (follow_of_version hload (pinnedVersion_of_blank hblank)) (by simp [machine])

/-- A plan whose configuration is loaded is rejected only if the root of the repository cannot be
resolved. -/
theorem rejects_iff_of_loaded {path : Option Path} {version : VersionOption}
    {pinned : Option Text} (hparse : Request.parse argv = .ok (planWith r version json))
    (hload : loaded s r = .ok (c, path)) (hversion : pinnedVersion version = .ok pinned) :
    Rejects s (planWith r version json) (run s argv) ↔
      ∃ fault, s.world.files.resolve s.world.current (context s r).root = .error fault := by
  have hfollow := follow_of_loaded (r := planWith r version json) hload hversion
  rw [perform_of_isPipeline rfl] at hfollow
  generalize c.withCompatVersion pinned = c' at hfollow
  generalize hm : started s (planWith r version json) path = m at hfollow
  cases hroot : s.world.files.resolve s.world.current (context s r).root with
  | error fault =>
      have hopen : (Shell.mk s.world (context s (planWith r version json))
          (.number c'.timeoutSeconds)).openAt none m = .error fault := by
        rw [Shell.openAt_eq]
        exact congrArg _ hroot
      simp only [runPipeline, hopen] at hfollow
      refine iff_of_true (.of_follow hparse hfollow ?_) ⟨fault, rfl⟩
      intro e he
      rw [← hm] at he
      cases List.mem_singleton.1 he
      simp [Shell.IsPlanned, startEvent, Text.ofString, Text.ofChars]
  | ok root =>
      refine iff_of_false ?_ (by simp)
      intro hrejects
      have hopen : (Shell.mk s.world (context s (planWith r version json))
          (.number c'.timeoutSeconds)).openAt none m = .ok { cwd := root, machine := m } := by
        rw [Shell.openAt_eq]
        exact congrArg _ hroot
      have dry : (Shell.mk s.world (context s (planWith r version json))
          (.number c'.timeoutSeconds)).context.dryRun = true := rfl
      obtain ⟨e, he, hplanned⟩ := Shell.exists_isPlanned dry c' { cwd := root, machine := m }
      refine hrejects.unplanned e ?_ hplanned
      rw [noted, hfollow]
      simp only [runPipeline, hopen]
      rcases hrun : ((Shell.mk s.world (context s (planWith r version json))
        (.number c'.timeoutSeconds)).runBook (.ofConfig c')).run { cwd := root, machine := m } with
        ⟨_ | _, _⟩ <;>
      · rw [hrun] at he
        exact he

namespace GivenBoth

theorem exists_loaded (h : GivenBoth s s' r c v) : ∃ path, loaded s r = .ok (c, path) := by
  obtain ⟨keys, value?, -, -, hfinds, haccepted, -⟩ := h.accepted
  refine ⟨some (candidate s r), ?_⟩
  rw [loaded_of_finds hfinds, haccepted]
  rfl

/-- A version that is not empty is loaded from the file. -/
theorem loaded_file (h : GivenBoth s s' r c v) (hne : v ≠ []) :
    ∃ path, loaded s r = .ok (c, path) ∧
      loaded s' r = .ok (c.withCompatVersion (some v), path) := by
  obtain ⟨keys, value?, keys', value?', hfinds, haccepted, hfinds', hpins⟩ := h.accepted
  refine ⟨some (candidate s r), ?_, ?_⟩
  · rw [loaded_of_finds hfinds, haccepted]
    rfl
  · have hpath : candidate s' r = candidate s r := by
      rw [candidate, candidate, h.context, h.environment]
    rw [loaded_of_finds hfinds', hpins.ofEntries haccepted hne, hpath]
    rfl

/-- A version that is not blank comes to the same from both sources. -/
theorem follow (h : GivenBoth s s' r c v) (hv : Text.trim v ≠ []) :
    CommandLine.follow s' (context s' (planWith r .absent json)) (planWith r .absent json) =
      CommandLine.follow s (context s (planWith r (.version v) json))
        (planWith r (.version v) json) := by
  have hne : v ≠ [] := by
    rintro rfl
    exact hv (by decide)
  obtain ⟨path, hload, hload'⟩ := h.loaded_file hne
  have hstarted : started s' (planWith r .absent json) path =
      started s (planWith r (.version v) json) path := by
    rw [started, started, machine, machine, h.devices, h.context]
    rfl
  have hpinned : (c.withCompatVersion (some v)).withCompatVersion none =
      c.withCompatVersion (some v) := rfl
  rw [follow_of_loaded (r := planWith r .absent json) hload' pinnedVersion_absent,
    follow_of_loaded (r := planWith r (.version v) json) hload (pinnedVersion_of_ne_nil hv),
    perform_of_isPipeline rfl, perform_of_isPipeline rfl, hstarted, h.context,
    context_planWith s r .absent (.version v) json, hpinned,
    h.runPipeline (planWith r (.version v) json) rfl]
  rfl

variable (hparse : Request.parse argv = .ok (planWith r (.version v) json))
  (hparse' : Request.parse argv' = .ok (planWith r .absent json))

include hparse hparse'

theorem run_eq (h : GivenBoth s s' r c v) (hv : Text.trim v ≠ []) : run s' argv' = run s argv := by
  rw [run_of_parse hparse, run_of_parse hparse', h.follow hv, h.context, outcome, outcome,
    h.devices, h.now]
  rfl

/-- An empty version is rejected from both sources, and one that is not blank comes to the
same. -/
theorem rejects_iff (h : GivenBoth s s' r c v) (hv : v = [] ∨ Text.trim v ≠ []) :
    Rejects s (planWith r (.version v) json) (run s argv) ↔
      Rejects s' (planWith r .absent json) (run s' argv') := by
  rcases hv with rfl | hv
  · obtain ⟨path, hload⟩ := h.exists_loaded
    have hcli := rejects_of_blank hparse hload (by decide)
    obtain ⟨keys, value?, keys', value?', -, haccepted, hfinds', hpins⟩ := h.accepted
    obtain ⟨refusal, hrefusal⟩ := hpins.ofEntries_of_nil haccepted
    have hload' : loaded s' r = .error (Config.ofRefusal (candidate s' r) refusal) := by
      rw [loaded_of_finds hfinds', hrefusal]
      rfl
    exact iff_of_true hcli (.of_follow hparse' (follow_of_fault hload') (by simp [machine]))
  · have hnoted : noted s' (planWith r .absent json) = noted s (planWith r (.version v) json) := by
      rw [noted, noted, h.follow hv]
    have hrun := h.run_eq hparse hparse' hv
    exact ⟨fun hr => ⟨hrun ▸ hr.exit, hnoted ▸ hr.unplanned⟩,
      fun hr => ⟨hrun ▸ hr.exit, hnoted ▸ hr.unplanned⟩⟩

/-- A version of white space is rejected on the command line, and in the file only if no plan
could start. -/
theorem rejects_of_space (h : GivenBoth s s' r c v) (hne : v ≠ []) (hblank : Text.trim v = []) :
    Rejects s (planWith r (.version v) json) (run s argv) ∧
      (Rejects s' (planWith r .absent json) (run s' argv') ↔
        ∃ fault, s.world.files.resolve s.world.current (context s r).root = .error fault) := by
  obtain ⟨path, hload, hload'⟩ := h.loaded_file hne
  refine ⟨rejects_of_blank hparse hload hblank, ?_⟩
  rw [rejects_iff_of_loaded hparse' hload' pinnedVersion_absent, h.resolve, h.context]

end GivenBoth

/-! ## The option for the version -/

/-- The word that gives a version, with the version behind an equality sign. -/
def versionWord (v : Text) : Text := "--compat-version=" ++ v

theorem exists_role_versionWord (v : Text) :
    ∃ role, Page.main.grammar.role (versionWord v) = .ok role := by
  have hrole : Page.main.grammar.role (versionWord v) =
      if isNumber (withoutNewline ((versionWord v).drop 1)) || (versionWord v).contains ' ' then
        .ok .argument
      else .ok .unknown := rfl
  rw [hrole]
  split
  · exact ⟨_, rfl⟩
  · exact ⟨_, rfl⟩

/-- The version that the word gives. -/
def heldVersion (v : Text) : VersionOption := if v = separator then .bare else .version v

theorem parse_versionWord (v : Text) :
    Request.parse ["plan", versionWord v] = .ok (planWith plainRun (heldVersion v) false) := by
  obtain ⟨role, hrole⟩ := exists_role_versionWord v
  have hmain : Page.main.grammar.read true ["plan", versionWord v] =
      .ok { command := some ("plan", [versionWord v]) } :=
    Grammar.read_command rfl (by decide) (by rintro ⟨⟩) hrole
  have hplan : Page.plan.grammar.read false [versionWord v] =
      .ok { switches := [(valueSwitch "--compat-version", Grammar.heldValue v)] } :=
    Grammar.read_value rfl (by rintro ⟨⟩) rfl
  rw [parse_of_read hmain rfl rfl hplan rfl]
  unfold heldVersion Grammar.heldValue
  split <;> rfl

/-- A word gives its version. -/
theorem parse_version (hv : v ≠ separator) :
    Request.parse ["plan", versionWord v] = .ok (planWith plainRun (.version v) false) := by
  rw [parse_versionWord, heldVersion, if_neg hv]

theorem parse_plan : Request.parse ["plan"] = .ok (planWith plainRun .absent false) := by
  decide +kernel

/-- A version that is used comes from the command line and is not blank, or from the
configuration and is not empty. -/
theorem compatVersion_cases {path : Option Path} {version : VersionOption} {pinned : Option Text}
    (hload : loaded s r = .ok (c, path)) (hversion : pinnedVersion version = .ok pinned) :
    (∃ v, version = .version v ∧ Text.trim v ≠ [] ∧
      (c.withCompatVersion pinned).compatVersion = v) ∨
    (version = .absent ∧ c.compatVersion ≠ [] ∧ c.withCompatVersion pinned = c) := by
  cases version with
  | absent =>
      cases hversion
      refine .inr ⟨rfl, ?_, rfl⟩
      have hsound : c.IsSound := Config.isSound_of_load hload
      exact (Config.problem?_compatVersion c.compatVersion).1 (hsound .compatVersion)
  | bare => cases hversion
  | version v =>
      simp only [pinnedVersion] at hversion
      split at hversion
      · cases hversion
      · next hne =>
          cases hversion
          exact .inl ⟨v, rfl, by simpa using hne, rfl⟩

/-! ## Both sources -/

/-- How a plan with a version on the command line and one with the same version in the
configuration file compare. -/
structure ComparesSources (s s' : Surroundings) (r : Request) (v : Text) (json : Bool)
    (argv argv' : List Text) : Prop where
  /-- Both runs reject the version or neither does, but for white space: that is rejected by
  both only if no plan could start. -/
  agree : (Rejects s (planWith r (.version v) json) (run s argv) ↔
      Rejects s' (planWith r .absent json) (run s' argv')) ↔
    v = [] ∨ Text.trim v ≠ [] ∨
      ∃ fault, s.world.files.resolve s.world.current (context s r).root = .error fault
  /-- A version that is not blank comes to the same run. -/
  same : Text.trim v ≠ [] → run s' argv' = run s argv
  /-- A blank version is rejected on the command line. -/
  blank : Text.trim v = [] → Rejects s (planWith r (.version v) json) (run s argv)

theorem GivenBoth.comparesSources (h : GivenBoth s s' r c v)
    (hparse : Request.parse argv = .ok (planWith r (.version v) json))
    (hparse' : Request.parse argv' = .ok (planWith r .absent json)) :
    ComparesSources s s' r v json argv argv' where
  agree := by
    by_cases hv : v = [] ∨ Text.trim v ≠ []
    · refine iff_of_true (h.rejects_iff hparse hparse' hv) ?_
      exact hv.imp_right .inl
    · obtain ⟨hne, hblank⟩ := not_or.1 hv
      obtain ⟨hcli, hfile⟩ := h.rejects_of_space hparse hparse' hne (not_not.1 hblank)
      rw [iff_true_left hcli, hfile, or_iff_right hne, or_iff_right hblank]
  same := h.run_eq hparse hparse'
  blank hblank := by
    obtain ⟨path, hload⟩ := h.exists_loaded
    exact rejects_of_blank hparse hload hblank

/-- A word that gives two hyphens gives no version, and is rejected. -/
theorem rejects_separator (s : Surroundings) :
    Rejects s (planWith plainRun .bare false) (run s ["plan", versionWord separator]) := by
  have hparse : Request.parse ["plan", versionWord separator] =
      .ok (planWith plainRun .bare false) := parse_versionWord separator
  cases hload : loaded s (planWith plainRun .bare false) with
  | error fault => exact .of_follow hparse (follow_of_fault hload) (by simp [machine])
  | ok found => exact .of_follow hparse (follow_of_version hload rfl) (by simp [machine])

/-- The two ways to pin the version of the dependency agree but for white space.

A version that is not blank comes to the same run from both sources, and an empty one is rejected
from both.  A version of white space is rejected on the command line, and so is one of two
hyphens, but the configuration file may hold it.  So the version that is used is never empty, and
it is blank only if the file says so. -/
theorem compatVersion_sources (h : GivenBoth s s' r c v)
    (hparse : Request.parse argv = .ok (planWith r (.version v) json))
    (hparse' : Request.parse argv' = .ok (planWith r .absent json)) :
    ComparesSources s s' r v json argv argv' ∧
    (v ≠ separator →
      Request.parse ["plan", versionWord v] = .ok (planWith plainRun (.version v) false)) ∧
    (v = separator →
      Rejects s (planWith plainRun .bare false) (run s ["plan", versionWord v])) ∧
    ∀ (t : Surroundings) (q : Request) (d : Config) (path : Option Path) (pinned : Option Text),
      loaded t q = .ok (d, path) → pinnedVersion q.task.compatVersion = .ok pinned →
      (d.withCompatVersion pinned).compatVersion ≠ [] ∧
      (Text.trim (d.withCompatVersion pinned).compatVersion = [] →
        q.task.compatVersion = .absent ∧ Text.trim d.compatVersion = []) := by
  refine ⟨h.comparesSources hparse hparse', parse_version, ?_, ?_⟩
  · rintro rfl
    exact rejects_separator s
  · intro t q d path pinned hload hversion
    rcases compatVersion_cases hload hversion with ⟨v, hv, hne, hused⟩ | ⟨hv, hne, hused⟩
    · rw [hused]
      refine ⟨?_, fun hblank => absurd hblank hne⟩
      rintro rfl
      exact hne (by decide)
    · rw [hused]
      exact ⟨hne, fun hblank => ⟨hv, hblank⟩⟩

/-- The repository of the samples with a configuration file in the usual place. -/
def configuredSurroundings (bytes : List UInt8) : Surroundings :=
  let s := sampleSurroundings "/usr/local" fun _ => 0
  { s with world := { s.world with files := Config.configured bytes } }

/-- A configuration file that sets the version of the pinned dependency and nothing else. -/
def pinningFile (v : String) : List UInt8 := ("compat_version: '" ++ v ++ "'\n").toUTF8.toList

/-- The file sets the version of the pinned dependency and nothing else. -/
def isPinning (bytes : List UInt8) (v : Text) : Bool :=
  match Config.documentIn bytes with
  | .ok (some d) =>
      match d.rootCell with
      | .mapping [entry] =>
          entry.1.value.same (.text Key.compatVersion.name) && (d.value entry.2).same (.text v)
      | _ => false
  | _ => false

theorem exists_pins_of_isPinning {bytes : List UInt8} (h : isPinning bytes v = true) :
    ∃ keys value?, Config.Holds bytes keys value? ∧
      Config.Pins [] (fun _ => none) v keys value? := by
  unfold isPinning at h
  split at h
  · next d hdocument =>
      split at h
      · next entry hroot =>
          simp only [Bool.and_eq_true, Value.same_text_iff] at h
          refine ⟨_, _, .mapping hdocument hroot, by simp [h.1], ?_, fun k hk => ?_⟩
          · rw [Config.given_cons_of_eq h.1, h.2]
          · rw [Config.given_eq_none_iff]
            intro other hother hname
            cases List.mem_singleton.1 hother
            rw [h.1] at hname
            exact hk (Key.eq_of_name (Value.text.inj hname)).symm
      · cases h
  · cases h

theorem givenBoth_of_isPinning {v : String} (h : isPinning (pinningFile v) v = true) :
    GivenBoth (configuredSurroundings []) (configuredSurroundings (pinningFile v)) plainRun {}
      v := by
  have hleads : ∀ bytes, (configuredSurroundings bytes).world.files.Leads ["srv", "book"]
      (candidate (configuredSurroundings bytes) plainRun) bytes := by
    intro bytes
    have hpath : candidate (configuredSurroundings bytes) plainRun =
        Config.candidate (.parse "/srv/book") none none := by
      change candidate (configuredSurroundings []) plainRun = _
      decide +kernel
    rw [hpath]
    exact ⟨by decide +kernel, rfl⟩
  have hempty : Config.documentIn [] = .ok none := rfl
  obtain ⟨keys, value?, hholds, hpins⟩ := exists_pins_of_isPinning h
  exact ⟨⟨rfl, rfl, rfl, rfl, rfl⟩, [], fun _ => none, keys, value?, ⟨[], hleads [], .empty hempty⟩,
    rfl, ⟨_, hleads _, hholds⟩, hpins⟩

/-- A version that is given in both ways, and a space that only the file may hold. -/
theorem compatVersion_sources_of_samples :
    run (configuredSurroundings (pinningFile "2.0")) ["plan"] =
        run (configuredSurroundings []) ["plan", versionWord "2.0"] ∧
      Rejects (configuredSurroundings []) (planWith plainRun (.version " ") false)
        (run (configuredSurroundings []) ["plan", versionWord " "]) ∧
      ¬Rejects (configuredSurroundings (pinningFile " ")) (planWith plainRun .absent false)
        (run (configuredSurroundings (pinningFile " ")) ["plan"]) ∧
      ∃ c path, loaded (configuredSurroundings (pinningFile " "))
          (planWith plainRun .absent false) = .ok (c, path) ∧
        c.compatVersion ≠ [] ∧ Text.trim c.compatVersion = [] := by
  have hgiven : GivenBoth (configuredSurroundings []) (configuredSurroundings (pinningFile "2.0"))
      plainRun {} "2.0" := givenBoth_of_isPinning (by decide +kernel)
  have hspace : GivenBoth (configuredSurroundings []) (configuredSurroundings (pinningFile " "))
      plainRun {} " " := givenBoth_of_isPinning (by decide +kernel)
  obtain ⟨hboth, -⟩ := compatVersion_sources hgiven (parse_version (by decide)) parse_plan
  obtain ⟨hblank, -, -, hused⟩ :=
    compatVersion_sources hspace (parse_version (by decide)) parse_plan
  have hcli := hblank.blank (by decide)
  obtain ⟨path, -, hload⟩ := hspace.loaded_file (by decide)
  refine ⟨hboth.same (by decide), hcli, fun hfile => ?_, _, path, hload, ?_, by decide⟩
  · rcases hblank.agree.1 (iff_of_true hcli hfile) with hnil | htrim | ⟨fault, hfault⟩
    · cases hnil
    · exact htrim (by decide)
    · cases hfault
  · exact (hused _ (planWith plainRun .absent false) _ _ none hload rfl).1

end CommandLine
end Bindery
