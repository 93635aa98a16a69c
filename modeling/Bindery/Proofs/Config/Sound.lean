import Bindery.Config.Schema
import Bindery.Config.Settings

/-!
# Sound configurations

A configuration is sound if each of its values keeps the rule of its key.  The defaults are
sound, and so is what is read from the entries of a mapping (`isSound_of_ofEntries`).  A sound
configuration that is shown as JSON is read back (`ofValue_toJson`), and it stays sound with
another version of the pinned dependency.
-/

namespace Bindery
namespace Config

variable {c c' : Config} {value? : Key → Option Value} {keys : List Value}

/-- All values keep the rules of their keys. -/
def IsSound (c : Config) : Prop := ∀ k : Key, k.rule.problem? (c.get k) = none

theorem ext_get (h : ∀ k, c.get k = c'.get k) : c = c' := by
  have hall : ∀ k ∈ Key.all, c.get k = c'.get k := fun k _ => h k
  cases c
  cases c'
  simpa [Key.all, get] using hall

theorem isSound_default : IsSound {} := by
  intro k
  cases k <;> decide +kernel

/-! ## Reading from entries -/

theorem rootViolation?_eq_none_iff :
    rootViolation? keys = none ↔ ∀ key ∈ keys, isKey key = true := by
  unfold rootViolation?
  split
  case h_1 h => simpa [List.filter_eq_nil_iff] using h
  case h_2 h =>
    simp only [reduceCtorEq, false_iff]
    intro hkeys
    exact h (List.filter_eq_nil_iff.2 fun key hkey => by simp [hkeys key hkey])

theorem violation?_eq_none_iff {k : Key} :
    violation? value? k = none ↔ ∀ v, value? k = some v → k.rule.problem? v = none := by
  unfold violation?
  cases value? k with
  | none => simp
  | some v => cases h : k.rule.problem? v <;> simp [h]

theorem violations_eq_nil_iff : violations keys value? = [] ↔
    (∀ key ∈ keys, isKey key = true) ∧ ∀ k v, value? k = some v → k.rule.problem? v = none := by
  simp only [violations, List.append_eq_nil_iff, Option.toList_eq_nil_iff,
    List.filterMap_eq_nil_iff, rootViolation?_eq_none_iff, violation?_eq_none_iff,
    Key.mem_fromGreatest, true_implies]

/-- Setting keys in a row sets each key that has a value, and it to this value. -/
theorem get_foldl_put (h : ∀ k v, value? k = some v → fits k v = true) (ks : List Key)
    (c : Config) (k : Key) :
    (ks.foldl (fun c l => ((value? l).map (c.put l)).getD c) c).get k =
      if k ∈ ks then (value? k).getD (c.get k) else c.get k := by
  induction ks generalizing c with
  | nil => rfl
  | cons l ks ih =>
      have hstep : (((value? l).map (c.put l)).getD c).get k =
          if k = l then (value? k).getD (c.get k) else c.get k := by
        cases hv : value? l with
        | none =>
            split
            case isTrue hkl => rw [hkl, hv]; rfl
            case isFalse => rfl
        | some v =>
            split
            case isTrue hkl =>
              subst hkl
              rw [hv]
              exact get_put (h k v hv) c
            case isFalse hkl => exact get_put_of_ne hkl c v
      rw [List.foldl_cons, ih, hstep]
      by_cases hkl : k = l
      · cases hv : value? k <;> simp [hkl]
      · simp [hkl]

theorem get_putAll (h : ∀ k v, value? k = some v → fits k v = true) (c : Config) (k : Key) :
    (c.putAll value?).get k = (value? k).getD (c.get k) := by
  rw [putAll, get_foldl_put h, if_pos k.mem_all]

theorem ofEntries_eq_ok_iff : ofEntries keys value? = .ok c ↔
    violations keys value? = [] ∧ c = ({} : Config).putAll value? := by
  unfold ofEntries
  cases violations keys value? with
  | nil => simp [eq_comm]
  | cons first others => simp

/-- What is read has the values of the entries, and else the defaults. -/
theorem get_of_ofEntries (h : ofEntries keys value? = .ok c) (k : Key) :
    c.get k = (value? k).getD (({} : Config).get k) := by
  obtain ⟨hviolations, rfl⟩ := ofEntries_eq_ok_iff.1 h
  obtain ⟨-, hrules⟩ := violations_eq_nil_iff.1 hviolations
  exact get_putAll (fun k v hv => Key.fits_of_rule (hrules k v hv)) {} k

theorem isSound_of_ofEntries (h : ofEntries keys value? = .ok c) : c.IsSound := by
  intro k
  rw [get_of_ofEntries h k]
  cases hv : value? k with
  | none => exact isSound_default k
  | some v =>
      obtain ⟨hviolations, -⟩ := ofEntries_eq_ok_iff.1 h
      exact (violations_eq_nil_iff.1 hviolations).2 k v hv

/-! ## Reading back -/

/-- The entries of the mapping that a configuration shows itself as. -/
def shown (c : Config) : List (Value × Value) := Key.all.map fun k => (.text k.name, c.get k)

theorem ofJson_valueJson (c : Config) (k : Key) : Value.ofJson (valueJson (c.get k)) = c.get k := by
  cases k <;> rfl

theorem ofJson_toJson (c : Config) : Value.ofJson c.toJson = .mapping c.shown := by
  have hmembers : ∀ ks : List Key,
      Value.ofMembers (ks.map fun k => ((k.name : Text), valueJson (c.get k))) =
        ks.map fun k => (.text k.name, c.get k) := by
    intro ks
    induction ks with
    | nil => rfl
    | cons k ks ih => rw [List.map_cons, Value.ofMembers, ih, ofJson_valueJson, List.map_cons]
  rw [toJson, Value.ofJson, hmembers, shown]

theorem lookup_shown (c : Config) (k : Key) : Value.lookup k.name c.shown = some (c.get k) := by
  cases k <;> rfl

theorem isKey_name (k : Key) : isKey (.text k.name) = true := by
  rw [isKey, Key.ofName?_name, Option.isSome_some]

/-- A sound configuration is read back from what it shows. -/
theorem IsSound.ofValue_toJson (h : c.IsSound) : ofValue (.ofJson c.toJson) = .ok c := by
  have hkeys : ∀ key ∈ c.shown.map Prod.fst, isKey key = true := by
    simp [shown, isKey_name]
  have hvalue : ∀ k v, some (c.get k) = some v → k.rule.problem? v = none := by
    rintro k v ⟨⟩
    exact h k
  rw [ofJson_toJson, ofValue]
  simp only [lookup_shown]
  rw [ofEntries_eq_ok_iff, violations_eq_nil_iff]
  refine ⟨⟨hkeys, hvalue⟩, ext_get fun k => ?_⟩
  rw [get_putAll (fun k v hv => Key.fits_of_rule (hvalue k v hv)), Option.getD_some]

theorem IsSound.withCompatVersion (h : c.IsSound) {version : Text} (hversion : version ≠ []) :
    (c.withCompatVersion (some version)).IsSound := by
  intro k
  change k.rule.problem? ((c.put .compatVersion (.text version)).get k) = none
  by_cases hk : k = .compatVersion
  · rw [hk, get_put rfl]
    cases version with
    | nil => exact absurd rfl hversion
    | cons => rfl
  · rw [get_put_of_ne hk]
    exact h k

end Config

/-! ## Settings -/

namespace Settings

theorem assign?_name (s : Settings) (k : Key) (v : Value) (changes : List (Text × Value)) :
    s.assign? ((k.name, v) :: changes) = (s.set k v).assign? changes := by
  rw [assign?, Key.ofName?_name]
  rfl

theorem set_ofConfig {k : Key} {v : Value} (h : Config.fits k v = true) (c : Config) :
    (ofConfig c).set k v = ofConfig (c.put k v) := by
  have hvalue : ∀ l, ((ofConfig c).set k v).value l = (ofConfig (c.put k v)).value l := by
    intro l
    change (if l = k then v else c.get l) = (c.put k v).get l
    split
    case isTrue hl => rw [hl, Config.get_put h]
    case isFalse hl => rw [Config.get_put_of_ne hl]
  exact congrArg Settings.mk (funext hvalue)

theorem override?_compatVersion (c : Config) (version : Text) :
    (ofConfig c).override? [(Key.compatVersion.name, .text version)] =
      some (ofConfig (c.withCompatVersion (some version))) := by
  change (ofConfig c).assign? [(Key.compatVersion.name, .text version)] = _
  rw [assign?_name, set_ofConfig rfl]
  rfl

end Settings
end Bindery
