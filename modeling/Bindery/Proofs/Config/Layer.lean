import Bindery.Proofs.Config.Verdict

/-!
# Layers of settings

Settings are made in layers: the defaults, then the entries of a file, then what overrides them
by name.  The last layer that gives a value to a key decides (`overrides_layered`).

All laws of overriding come from one description.  Overriding by a map succeeds if each entry
that is not null is under the name of a key.  Then the keys with such an entry have its value,
and the others have the value that they had (`override?_eq_some_iff`).  So it does not matter
where in a map an entry stands, and maps that are applied in a row can be merged first.
Settings are values: what is overridden stays as it was, and so it does where overriding fails.
-/

namespace Bindery

open Config (named ofNamed ofValue valueOf valueOf_eq_some_iff IsKnown)

namespace Settings

variable {s t : Settings} {a b changes entries : List (Text × Value)} {name : Text} {v : Value}

/-! ## Maps by name -/

/-- Entries under different names, none of which is the name for the settings as a whole. -/
structure IsKeywords (changes : List (Text × Value)) : Prop where
  distinct : (changes.map Prod.fst).Nodup
  notWhole : ∀ change ∈ changes, change.1 ≠ wholeName

/-- The entries that are not null. -/
def nonNull (changes : List (Text × Value)) : List (Text × Value) :=
  changes.filter fun change => !isNull change.2

/-- The map with the value of a name set.  A new name goes to the end. -/
def putEntry (name : Text) (v : Value) : List (Text × Value) → List (Text × Value)
  | [] => [(name, v)]
  | entry :: entries =>
      if entry.1 = name then (name, v) :: entries else entry :: putEntry name v entries

/-- The map with all entries of another one set. -/
def merge (a b : List (Text × Value)) : List (Text × Value) :=
  b.foldl (fun merged entry => putEntry entry.1 entry.2 merged) a

theorem isNull_eq_false_iff : isNull v = false ↔ v ≠ .null := by cases v <;> simp [isNull]

theorem mem_nonNull {change : Text × Value} :
    change ∈ nonNull changes ↔ change ∈ changes ∧ change.2 ≠ .null := by
  simp [nonNull, isNull_eq_false_iff]

theorem IsKeywords.nonNull (h : IsKeywords changes) : IsKeywords (nonNull changes) where
  distinct := h.distinct.sublist (List.filter_sublist.map Prod.fst)
  notWhole change hchange := h.notWhole change (mem_nonNull.1 hchange).1

/-- An entry is in a map with a name set if it is the new one or under another name. -/
theorem mem_putEntry (h : (entries.map Prod.fst).Nodup) {entry : Text × Value} :
    entry ∈ putEntry name v entries ↔ entry = (name, v) ∨ entry ∈ entries ∧ entry.1 ≠ name := by
  induction entries with
  | nil => simp [putEntry]
  | cons first entries ih =>
      obtain ⟨hfirst, hentries⟩ := List.nodup_cons.1 h
      rw [putEntry]
      split
      case isTrue hname =>
        have hother : ∀ other ∈ entries, other.1 ≠ name := fun other hmem hother =>
          hfirst (List.mem_map.2 ⟨other, hmem, hother.trans hname.symm⟩)
        grind
      case isFalse hname =>
        simp only [List.mem_cons, ih hentries]
        grind

theorem distinct_putEntry (h : (entries.map Prod.fst).Nodup) (name : Text) (v : Value) :
    ((putEntry name v entries).map Prod.fst).Nodup := by
  induction entries with
  | nil => simp [putEntry]
  | cons first entries ih =>
      obtain ⟨hfirst, hentries⟩ := List.nodup_cons.1 h
      rw [putEntry]
      split
      case isTrue hname => simpa [← hname] using h
      case isFalse hname =>
        refine List.nodup_cons.2 ⟨fun hmem => ?_, ih hentries⟩
        obtain ⟨entry, hentry, heq⟩ := List.mem_map.1 hmem
        rcases (mem_putEntry hentries).1 hentry with rfl | ⟨hentry, -⟩
        · exact hname heq.symm
        · exact hfirst (List.mem_map.2 ⟨entry, hentry, heq⟩)

theorem distinct_merge (h : (a.map Prod.fst).Nodup) (b : List (Text × Value)) :
    ((merge a b).map Prod.fst).Nodup := by
  induction b generalizing a with
  | nil => exact h
  | cons entry b ih => exact ih (distinct_putEntry h entry.1 entry.2)

/-- An entry is in a merged map if the second map has it, or the first one has it and the second
one has no entry under its name. -/
theorem mem_merge (ha : (a.map Prod.fst).Nodup) (hb : (b.map Prod.fst).Nodup)
    {entry : Text × Value} :
    entry ∈ merge a b ↔ entry ∈ b ∨ entry ∈ a ∧ ∀ other ∈ b, other.1 ≠ entry.1 := by
  induction b generalizing a with
  | nil => simp [merge]
  | cons first b ih =>
      obtain ⟨hfirst, hb⟩ := List.nodup_cons.1 hb
      have hrest : ∀ other ∈ b, other.1 ≠ first.1 := fun other hmem hother =>
        hfirst (List.mem_map.2 ⟨other, hmem, hother⟩)
      have hmerge : merge a (first :: b) = merge (putEntry first.1 first.2 a) b := rfl
      rw [hmerge, ih (distinct_putEntry ha _ _) hb, mem_putEntry ha]
      grind

theorem IsKeywords.merge (ha : IsKeywords a) (hb : IsKeywords b) : IsKeywords (merge a b) where
  distinct := distinct_merge ha.distinct b
  notWhole change hchange := by
    rcases (mem_merge ha.distinct hb.distinct).1 hchange with hmem | ⟨hmem, -⟩
    · exact hb.notWhole change hmem
    · exact ha.notWhole change hmem

/-- A name has one value in a merged map: that of the second map, or else that of the first. -/
theorem valueOf_merge (ha : (a.map Prod.fst).Nodup) (hb : (b.map Prod.fst).Nodup) (k : Key) :
    valueOf (merge a b) k = (valueOf b k).or (valueOf a k) := by
  refine Option.ext fun v => ?_
  rw [valueOf_eq_some_iff (distinct_merge ha b), mem_merge ha hb, Option.or_eq_some_iff,
    valueOf_eq_some_iff hb, valueOf_eq_some_iff ha, Option.eq_none_iff_forall_ne_some]
  simp only [ne_eq, valueOf_eq_some_iff hb]
  grind

/-! ## Layers -/

/-- The settings under a layer of values. -/
def under (s : Settings) (value? : Key → Option Value) : Settings :=
  ⟨fun k => (value? k).getD (s.value k)⟩

theorem under_under (s : Settings) (f g : Key → Option Value) :
    (s.under f).under g = s.under fun k => (g k).or (f k) := by
  refine congrArg mk (funext fun k => ?_)
  cases hg : g k <;> simp [under, hg]

theorem valueOf_cons (name : Text) (v : Value) (entries : List (Text × Value)) (k : Key) :
    valueOf ((name, v) :: entries) k = if name = k.name then some v else valueOf entries k := rfl

/-- An entry is set before the others, which are under other names. -/
theorem set_under {k : Key} (h : ((((k.name : Text), v) :: changes).map Prod.fst).Nodup)
    (s : Settings) :
    (s.set k v).under (valueOf changes) = s.under (valueOf ((k.name, v) :: changes)) := by
  obtain ⟨hname, hchanges⟩ := List.nodup_cons.1 h
  refine congrArg mk (funext fun l => ?_)
  rw [valueOf_cons]
  by_cases hl : l = k
  · subst hl
    have hrest : valueOf changes l = none := by
      refine Option.eq_none_iff_forall_ne_some.2 fun w hw => hname ?_
      have hmem : ((l.name : Text), w) ∈ changes := (valueOf_eq_some_iff hchanges).1 hw
      exact List.mem_map.2 ⟨_, hmem, rfl⟩
    simp [hrest, set]
  · have hother : ¬(k.name : Text) = l.name := fun hsame => hl (Key.eq_of_name hsame).symm
    simp [hother, set, hl]

/-- Settings are set by name if all names are those of keys. -/
theorem assign?_eq_some_iff (h : (changes.map Prod.fst).Nodup) :
    s.assign? changes = some t ↔
      (∀ change ∈ changes, IsKnown change.1) ∧ t = s.under (valueOf changes) := by
  induction changes generalizing s with
  | nil => simp [assign?, under, valueOf, ofNamed, Value.lookup, eq_comm]
  | cons change changes ih =>
      obtain ⟨name, v⟩ := change
      by_cases hname : IsKnown name
      · obtain ⟨k, rfl⟩ := hname
        have hk : IsKnown (k.name : Text) := ⟨k, rfl⟩
        rw [assign?_name, ih (List.nodup_cons.1 h).2, set_under h, List.forall_mem_cons]
        simp only [hk, true_and]
      · have hnone : Key.ofName? name = none := by
          rw [← Option.not_isSome_iff_eq_none]
          exact fun hsome => hname (Config.isKey_text_iff.1 hsome)
        simp [assign?, hnone, hname]

/-- Settings are overridden by name if all names of entries that are not null are those of
keys. -/
theorem override?_eq_some_iff (h : IsKeywords changes) :
    s.override? changes = some t ↔
      (∀ change ∈ changes, change.2 ≠ .null → IsKnown change.1) ∧
        t = s.under (valueOf (nonNull changes)) := by
  have hwhole : (changes.any fun change => change.1 == wholeName) = false := by
    simpa using h.notWhole
  have hoverride : s.override? changes = s.assign? (nonNull changes) := by
    rw [override?, hwhole]
    rfl
  rw [hoverride, assign?_eq_some_iff h.nonNull.distinct]
  simp only [mem_nonNull, and_imp]

theorem override?_eq_none_iff (h : IsKeywords changes) :
    s.override? changes = none ↔ ∃ change ∈ changes, change.2 ≠ .null ∧ ¬IsKnown change.1 := by
  rw [Option.eq_none_iff_forall_ne_some]
  simp [override?_eq_some_iff h]

/-- Only the entries that are not null count, in any order. -/
theorem override?_of_perm (ha : IsKeywords a) (hb : IsKeywords b)
    (h : (nonNull a).Perm (nonNull b)) : s.override? b = s.override? a := by
  refine Option.ext fun t => ?_
  have hmem : ∀ change : Text × Value, change ∈ a ∧ change.2 ≠ .null ↔
      change ∈ b ∧ change.2 ≠ .null := fun change => by
    rw [← mem_nonNull, ← mem_nonNull, h.mem_iff]
  rw [override?_eq_some_iff ha, override?_eq_some_iff hb,
    Config.valueOf_eq_of_perm ha.nonNull.distinct h]
  simp only [← and_imp, hmem]

/-- The entries of a merged map that are not null are those of both maps, merged. -/
theorem nonNull_merge_perm (ha : (a.map Prod.fst).Nodup) (hb : (b.map Prod.fst).Nodup) :
    (nonNull (merge a (nonNull b))).Perm (merge (nonNull a) (nonNull b)) := by
  have hka : ((nonNull a).map Prod.fst).Nodup := ha.sublist (List.filter_sublist.map Prod.fst)
  have hkb : ((nonNull b).map Prod.fst).Nodup := hb.sublist (List.filter_sublist.map Prod.fst)
  have hleft : (nonNull (merge a (nonNull b))).Nodup := (distinct_merge ha _).of_map.filter _
  have hright : (merge (nonNull a) (nonNull b)).Nodup := (distinct_merge hka _).of_map
  refine (List.perm_ext_iff_of_nodup hleft hright).2 fun entry => ?_
  rw [mem_nonNull, mem_merge ha hkb, mem_merge hka hkb, mem_nonNull, mem_nonNull]
  grind

/-- Overriding by two maps in a row is overriding by the merged map. -/
theorem override?_bind (ha : IsKeywords a) (hb : IsKeywords b) (s : Settings) :
    (s.override? a).bind (fun t => t.override? b) = s.override? (merge a (nonNull b)) := by
  have hknown : (∀ change ∈ merge a (nonNull b), change.2 ≠ .null → IsKnown change.1) ↔
      (∀ change ∈ a, change.2 ≠ .null → IsKnown change.1) ∧
        ∀ change ∈ b, change.2 ≠ .null → IsKnown change.1 := by
    simp only [mem_merge ha.distinct hb.nonNull.distinct, mem_nonNull]
    grind
  have hvalues : s.under (valueOf (nonNull (merge a (nonNull b)))) =
      (s.under (valueOf (nonNull a))).under (valueOf (nonNull b)) := by
    rw [under_under, Config.valueOf_eq_of_perm (distinct_merge ha.nonNull.distinct _)
      (nonNull_merge_perm ha.distinct hb.distinct).symm]
    exact congrArg s.under
      (funext (valueOf_merge ha.nonNull.distinct hb.nonNull.distinct))
  refine Option.ext fun u => ?_
  rw [Option.bind_eq_some_iff, override?_eq_some_iff (ha.merge hb.nonNull), hknown, hvalues]
  simp only [override?_eq_some_iff ha, override?_eq_some_iff hb]
  constructor
  · rintro ⟨t, ⟨hknowna, rfl⟩, hknownb, hu⟩
    exact ⟨⟨hknowna, hknownb⟩, hu⟩
  · rintro ⟨⟨hknowna, hknownb⟩, hu⟩
    exact ⟨_, ⟨hknowna, rfl⟩, hknownb, hu⟩

/-- Overriding by maps in a row, whatever their number, is overriding once. -/
theorem foldlM_override? {maps : List (List (Text × Value))} (ha : IsKeywords a)
    (hmaps : ∀ m ∈ maps, IsKeywords m) (s : Settings) :
    (s.override? a).bind (fun t => maps.foldlM override? t) =
      s.override? (maps.foldl (fun merged m => merge merged (nonNull m)) a) := by
  induction maps generalizing a with
  | nil => exact Option.bind_fun_some _
  | cons m maps ih =>
      have hm : IsKeywords m := hmaps m List.mem_cons_self
      have hrest : ∀ m ∈ maps, IsKeywords m := fun m hmem => hmaps m (List.mem_cons_of_mem _ hmem)
      rw [List.foldl_cons, ← ih (ha.merge hm.nonNull) hrest, ← override?_bind ha hm,
        Option.bind_assoc]
      rfl

/-! ## Layers on a file -/

/-- A mapping that is a configuration has texts as keys. -/
theorem exists_named_of_ofValue {m : List (Value × Value)} {c : Config}
    (h : ofValue (.mapping m) = .ok c) : ∃ entries, m = ofNamed entries := by
  obtain ⟨hkeys, -⟩ := Config.violations_eq_nil_iff.1 (Config.ofEntries_eq_ok_iff.1 h).1
  clear h
  induction m with
  | nil => exact ⟨[], rfl⟩
  | cons entry m ih =>
      obtain ⟨key, v⟩ := entry
      obtain ⟨k, rfl⟩ := Config.exists_key_of_isKey (hkeys key List.mem_cons_self)
      obtain ⟨entries, rfl⟩ := ih fun other hother => hkeys other (List.mem_cons_of_mem _ hother)
      exact ⟨(k.name, v) :: entries, rfl⟩

/-- The names of a mapping that is a configuration are those of keys. -/
theorem isKnown_of_ofValue {c : Config} (h : ofValue (named entries) = .ok c) :
    ∀ entry ∈ entries, IsKnown entry.1 := by
  obtain ⟨hkeys, -⟩ := Config.violations_eq_nil_iff.1 (Config.ofEntries_eq_ok_iff.1 h).1
  intro entry hentry
  exact Config.isKey_text_iff.1 (hkeys _ (List.mem_map_of_mem (List.mem_map_of_mem hentry)))

/-- A configuration is the layer of its entries on the defaults. -/
theorem ofConfig_eq_under {c : Config} (h : ofValue (named entries) = .ok c) :
    ofConfig c = (ofConfig {}).under (valueOf entries) :=
  congrArg mk (funext (Config.get_of_ofEntries h))

/-- A value for one key is a map of its own. -/
theorem isKeywords_singleton (k : Key) (v : Value) : IsKeywords [((k.name : Text), v)] where
  distinct := by simp
  notWhole := by
    have hname : (k.name : Text) ≠ wholeName := by cases k <;> decide +kernel
    simpa using hname

/-- To set a key in the entries of a configuration is to override it afterwards. -/
theorem exists_overridden (h : (entries.map Prod.fst).Nodup) {c : Config}
    (hc : ofValue (named entries) = .ok c) (k : Key) (hv : v ≠ .null) :
    ∃ t, (ofConfig {}).assign? (putEntry k.name v entries) = some t ∧
      (ofConfig c).override? [((k.name : Text), v)] = some t := by
  have hsingle : IsKeywords [((k.name : Text), v)] := isKeywords_singleton k v
  have hput : putEntry k.name v entries = merge entries [((k.name : Text), v)] := rfl
  have hkept : nonNull [((k.name : Text), v)] = [((k.name : Text), v)] := by
    simp [nonNull, isNull_eq_false_iff, hv]
  have hvalues : (ofConfig c).under (valueOf [((k.name : Text), v)]) =
      (ofConfig {}).under (valueOf (putEntry k.name v entries)) := by
    rw [ofConfig_eq_under hc, under_under, hput]
    exact congrArg (ofConfig {}).under (funext fun l => (valueOf_merge h hsingle.distinct l).symm)
  refine ⟨_, (assign?_eq_some_iff (distinct_putEntry h _ _)).2 ⟨fun entry hentry => ?_, rfl⟩,
    (override?_eq_some_iff hsingle).2 ⟨fun change hchange _ => ?_, ?_⟩⟩
  · rcases (mem_putEntry h).1 hentry with rfl | ⟨hmem, -⟩
    · exact ⟨k, rfl⟩
    · exact isKnown_of_ofValue hc entry hmem
  · exact ⟨k, congrArg Prod.fst (List.mem_singleton.1 hchange)⟩
  · rw [hkept, hvalues]

/-! ## The order of the layers -/

/-- Settings follow two maps, one after the other. -/
structure Follows (s : Settings) (a b : List (Text × Value)) : Prop where
  /-- Both maps have the same effect as the first one with the entries of the second one set,
  and they fail together. -/
  merged : (s.override? a).bind (fun t => t.override? b) = s.override? (merge a (nonNull b))
  /-- So it is with any number of maps. -/
  folded : ∀ maps : List (List (Text × Value)), (∀ m ∈ maps, IsKeywords m) →
    (s.override? a).bind (fun t => maps.foldlM override? t) =
      s.override? (maps.foldl (fun merged m => merge merged (nonNull m)) a)
  /-- A map fails if an entry that is not null is under the name of no key. -/
  rejected : s.override? a = none ↔ ∃ change ∈ a, change.2 ≠ .null ∧ ¬IsKnown change.1
  /-- Neither the entries that are null nor the order of the entries matter. -/
  reordered : ∀ a' : List (Text × Value), IsKeywords a' → (nonNull a).Perm (nonNull a') →
    s.override? a' = s.override? a
  /-- A key with an entry that is not null has its value. -/
  changed : ∀ t, s.override? a = some t → ∀ (k : Key) (v : Value), ((k.name : Text), v) ∈ a →
    v ≠ .null → t.value k = v
  /-- A key without such an entry keeps its value. -/
  kept : ∀ t, s.override? a = some t → ∀ k : Key,
    (∀ v, ((k.name : Text), v) ∈ a → v = .null) → t.value k = s.value k

theorem follows (ha : IsKeywords a) (hb : IsKeywords b) (s : Settings) : Follows s a b where
  merged := override?_bind ha hb s
  folded _ hmaps := foldlM_override? ha hmaps s
  rejected := override?_eq_none_iff ha
  reordered _ ha' hperm := override?_of_perm ha ha' hperm
  changed t ht k v hmem hv := by
    obtain ⟨-, rfl⟩ := (override?_eq_some_iff ha).1 ht
    have hvalue : valueOf (nonNull a) k = some v :=
      (valueOf_eq_some_iff ha.nonNull.distinct).2 (mem_nonNull.2 ⟨hmem, hv⟩)
    simp [under, hvalue]
  kept t ht k hnull := by
    obtain ⟨-, rfl⟩ := (override?_eq_some_iff ha).1 ht
    have hvalue : valueOf (nonNull a) k = none := by
      refine Option.eq_none_iff_forall_ne_some.2 fun v hv => ?_
      obtain ⟨hmem, hv⟩ := mem_nonNull.1 ((valueOf_eq_some_iff ha.nonNull.distinct).1 hv)
      exact hv (hnull v hmem)
    simp [under, hvalue]

/-- A configuration is a layer between the defaults and what overrides it. -/
structure IsLayer (entries : List (Text × Value)) (c : Config) : Prop where
  /-- It is what is made of its entries. -/
  made : (ofConfig {}).assign? entries = some (ofConfig c)
  /-- A key can be set in the entries or afterwards. -/
  overridden : ∀ (k : Key) (v : Value), v ≠ .null →
    ∃ t, (ofConfig {}).assign? (putEntry k.name v entries) = some t ∧
      (ofConfig c).override? [((k.name : Text), v)] = some t
  /-- A key has the value that overrides it, or else that of its entry, or else the default. -/
  ordered : ∀ (changes : List (Text × Value)) (t : Settings), IsKeywords changes →
    (ofConfig c).override? changes = some t → ∀ k : Key,
      t.value k = ((valueOf (nonNull changes) k).or (valueOf entries k)).getD
        (({} : Config).get k)

theorem isLayer (h : (entries.map Prod.fst).Nodup) {c : Config}
    (hc : ofValue (named entries) = .ok c) : IsLayer entries c where
  made := (assign?_eq_some_iff h).2 ⟨isKnown_of_ofValue hc, ofConfig_eq_under hc⟩
  overridden k v hv := exists_overridden h hc k hv
  ordered changes t hchanges ht k := by
    obtain ⟨-, rfl⟩ := (override?_eq_some_iff hchanges).1 ht
    rw [ofConfig_eq_under hc, under_under]
    rfl

/-- Overrides of settings follow each other, and those of a configuration follow its entries,
which follow the defaults. -/
theorem overrides_layered :
    (∀ (s : Settings) (a b : List (Text × Value)), IsKeywords a → IsKeywords b → Follows s a b) ∧
      ∀ (m : List (Value × Value)) (c : Config), (m.map Prod.fst).Nodup →
        ofValue (.mapping m) = .ok c → ∃ entries, m = ofNamed entries ∧ IsLayer entries c := by
  refine ⟨fun s a b ha hb => follows ha hb s, fun m c hm hc => ?_⟩
  obtain ⟨entries, rfl⟩ := exists_named_of_ofValue hc
  refine ⟨entries, rfl, isLayer ?_ hc⟩
  rw [ofNamed, List.map_map] at hm
  exact List.Nodup.of_map Value.text (by rwa [List.map_map])

theorem overrides_layered_of_npm :
    let a : List (Text × Value) := [("npm", .text "pnpm"), ("acl", .null)]
    let b : List (Text × Value) := [("npm", .null), ("acl", .number (.int 7))]
    let unknown : List (Text × Value) := [("npx", .text "npx"), ("zone", .null)]
    let m : List (Value × Value) := [(.text "npm", .text "yarn")]
    let c : Config := { npm := "yarn" }
    IsKeywords a ∧ IsKeywords b ∧ IsKeywords unknown ∧ (m.map Prod.fst).Nodup ∧
      ofValue (.mapping m) = .ok c ∧ Follows (ofConfig c) a b ∧ Follows (ofConfig c) unknown b ∧
      (∃ entries, m = ofNamed entries ∧ IsLayer entries c) ∧
      ((ofConfig c).override? (merge a (nonNull b))).map (fun t => (t.value .npm, t.value .acl)) =
        some (.text "pnpm", .number (.int 7)) ∧
      (ofConfig c).override? (merge unknown (nonNull b)) = none := by
  intro a b unknown m c
  have ha : IsKeywords a := ⟨by decide +kernel, by decide +kernel⟩
  have hb : IsKeywords b := ⟨by decide +kernel, by decide +kernel⟩
  have hunknown : IsKeywords unknown := ⟨by decide +kernel, by decide +kernel⟩
  have hm : (m.map Prod.fst).Nodup := List.nodup_singleton _
  have hc : ofValue (.mapping m) = .ok c := by rfl
  exact ⟨ha, hb, hunknown, hm, hc, overrides_layered.1 _ a b ha hb,
    overrides_layered.1 _ unknown b hunknown hb, overrides_layered.2 m c hm hc, by rfl, by rfl⟩

end Settings
end Bindery
