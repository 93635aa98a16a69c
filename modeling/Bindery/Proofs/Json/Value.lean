import Bindery.Proofs.Json.Decimal
import Bindery.Proofs.Json.Ordered

/-!
# Values are read back

A legible value, whose numbers are finite and whose objects have distinct names, is read back
when it is written on one line: with the members of every object in the order of their names and
with halves of surrogate pairs joined (`parse?_render`).  Every value is written in ASCII, and on
one line with visible characters only (`isVisible_renderAt`).

`Reads` says that a text is read as a value, wherever it stands.  Arrays and objects are read
if their items and members are.
-/

namespace Bindery.Json

open Text (joined sortOn)

/-! ## Texts that are read -/

/-- The text is read as the value, whatever stops it. -/
def Reads (text : List Char) (v : Json) : Prop :=
  ∀ fuel rest, text.length < fuel → Stops rest → readValue fuel (text ++ rest) = some (v, rest)

/-- The reader has a unit of fuel for every text. -/
theorem reads_of_succ {text : List Char} {v : Json}
    (h : ∀ fuel rest, text.length ≤ fuel → Stops rest →
      readValue (fuel + 1) (text ++ rest) = some (v, rest)) : Reads text v := by
  intro fuel rest hfuel hrest
  cases fuel with
  | zero => exact absurd hfuel (Nat.not_lt_zero _)
  | succ fuel => exact h fuel rest (Nat.le_of_lt_succ hfuel) hrest

/-- The text starts with a character that is no blank and closes nothing. -/
def StartsValue (text : List Char) : Prop :=
  ∃ c cs, text = c :: cs ∧ isSpace c = false ∧ c ≠ ']'

theorem skip_cons {c : Char} (h : isSpace c = false) (cs : List Char) :
    skip (c :: cs) = c :: cs := by
  rw [skip, List.dropWhile_cons, h]
  rfl

theorem skip_blank (cs : List Char) : skip (' ' :: cs) = skip cs := rfl

theorem readValue_blank (fuel : Nat) (cs : List Char) :
    readValue fuel (' ' :: cs) = readValue fuel cs := by
  cases fuel with
  | zero => rfl
  | succ fuel => rw [readValue, readValue, skip_blank]

theorem readItems_blank (fuel : Nat) (cs : List Char) :
    readItems fuel (' ' :: cs) = readItems fuel cs := by
  cases fuel with
  | zero => rfl
  | succ fuel => rw [readItems, readItems, readValue_blank]

theorem readMembers_blank (fuel : Nat) (cs : List Char) :
    readMembers fuel (' ' :: cs) = readMembers fuel cs := by
  cases fuel with
  | zero => rfl
  | succ fuel => rw [readMembers, readMembers, skip_blank]

/-! ## Words, strings and numbers -/

theorem reads_null : Reads "null".toList .null := by
  refine reads_of_succ fun fuel rest hfuel hrest => ?_
  rfl

theorem reads_bool (b : Bool) : Reads (if b then "true" else "false").toList (.bool b) := by
  refine reads_of_succ fun fuel rest hfuel hrest => ?_
  cases b <;> rfl

theorem reads_text (s : Text) : Reads (renderText s) (.text (joined s)) := by
  refine reads_of_succ fun fuel rest hfuel hrest => ?_
  change (readText (inside s ++ rest)).map _ = _
  rw [readText_inside]
  rfl

/-- A digit is no other character that a value starts with. -/
theorem isDigit_ne {c d : Char} (hc : c.isDigit = true) (hd : d.isDigit = false) : c ≠ d := by
  rintro rfl
  rw [hc] at hd
  cases hd

theorem isSpace_of_isDigit {c : Char} (hc : c.isDigit = true) : isSpace c = false := by
  simp [isSpace, isDigit_ne hc]

theorem readValue_digit {c : Char} (hc : c.isDigit = true) (fuel : Nat) (cs : List Char) :
    readValue (fuel + 1) (c :: cs) = (readNumber (c :: cs)).map fun p => (.number p.1, p.2) := by
  have hne (d : Char) (hd : d.isDigit = false) : c ≠ d := isDigit_ne hc hd
  rw [readValue, skip_cons (isSpace_of_isDigit hc)]
  simp [hne]

theorem readValue_minus {d : Char} (hd : d.isDigit = true) (fuel : Nat) (cs : List Char) :
    readValue (fuel + 1) ('-' :: d :: cs) =
      (readNumber ('-' :: d :: cs)).map fun p => (.number p.1, p.2) := by
  have hspace : isSpace '-' = false := by decide
  rw [readValue, skip_cons hspace]
  simp [isDigit_ne hd]

theorem reads_number {n : Number} (h : n.IsFinite) :
    Reads (renderNumber n).toList (.number n) := by
  refine reads_of_succ fun fuel rest hfuel hrest => ?_
  have hread := readNumber_renderNumber h hrest
  obtain ⟨d, ds, hd, htext | htext⟩ := exists_digit h
  · rw [htext, List.cons_append] at hread ⊢
    rw [readValue_digit hd, hread]
    rfl
  · rw [htext, List.cons_append, List.cons_append] at hread ⊢
    rw [readValue_minus hd, hread]
    rfl

/-! ## Arrays -/

/-- Items one after the other are read if each of them is. -/
theorem readItems_intercalate {f : Json → List Char} {g : Json → Json} {items : List Json}
    (hne : items ≠ []) (h : ∀ v ∈ items, Reads (f v) (g v)) (fuel : Nat) (rest : List Char)
    (hfuel : (List.intercalate [',', ' '] (items.map f)).length + 1 < fuel) :
    readItems fuel (List.intercalate [',', ' '] (items.map f) ++ ']' :: rest) =
      some (items.map g, rest) := by
  induction items generalizing fuel with
  | nil => exact absurd rfl hne
  | cons v items ih =>
      obtain ⟨fuel, rfl⟩ := Nat.exists_eq_succ_of_ne_zero (Nat.ne_zero_of_lt hfuel)
      cases items with
      | nil =>
          simp only [List.map_cons, List.map_nil, List.intercalate_singleton] at hfuel ⊢
          have hread := h v (.head _) fuel (']' :: rest) (Nat.lt_of_succ_lt_succ hfuel)
            (stops_cons (by simp) rest)
          rw [readItems, hread]
          rfl
      | cons w items =>
          rw [List.map_cons, List.map_cons, List.intercalate_cons_cons, ← List.map_cons] at hfuel ⊢
          simp only [List.length_append, List.length_cons, List.length_nil] at hfuel
          -- the item takes one unit of fuel, and the separator alone pays for it
          have hmore := ih (List.cons_ne_nil _ _) (fun x hx => h x (.tail _ hx)) fuel (by omega)
          have hread := h v (.head _) fuel
            (',' :: ' ' :: (List.intercalate [',', ' '] ((w :: items).map f) ++ ']' :: rest))
            (by omega) (stops_cons (by simp) _)
          rw [List.append_assoc, List.append_assoc, List.cons_append, List.cons_append,
            List.nil_append, readItems, hread]
          change (readItems fuel (' ' :: _)).bind _ = _
          rw [readItems_blank, hmore]
          rfl

/-! ## Objects -/

/-- A member as it is written. -/
def memberText (name : Text) (text : List Char) : List Char := renderText name ++ [':', ' '] ++ text

/-- A member is read up to what follows its value. -/
theorem readMembers_memberText (name : Text) {text : List Char} {v : Json} (h : Reads text v)
    {fuel : Nat} (hfuel : text.length < fuel) {rest : List Char} (hrest : Stops rest) :
    readMembers (fuel + 1) (memberText name text ++ rest) =
      match skip rest with
      | ',' :: rest => do
          let (members, rest) ← readMembers fuel rest
          return (if (members.lookup (joined name)).isSome then members
            else (joined name, v) :: members, rest)
      | '\x7d' :: rest => return ([(joined name, v)], rest)
      | _ => none := by
  have hvalue := h fuel rest hfuel hrest
  have htext : memberText name text ++ rest =
      '\x22' :: (inside name ++ (':' :: ' ' :: (text ++ rest))) := by
    simp [memberText, renderText, inside]
  have hquote (cs : List Char) : skip ('\x22' :: cs) = '\x22' :: cs := skip_cons (by decide) cs
  rw [htext, readMembers, hquote]
  simp only [readText_inside, Option.bind_eq_bind, Option.bind_some]
  change (readValue fuel (' ' :: _)).bind _ = _
  rw [readValue_blank, hvalue]
  rfl

/-- A name that no member has is not found among those that are read. -/
theorem lookup_of_notMem {g : Json → Json} {name : Text} {members : List (Text × Json)}
    (h : name ∉ members.map fun m => joined m.1) :
    List.lookup name (members.map fun m => (joined m.1, g m.2)) = none := by
  rw [List.lookup_eq_none_iff]
  intro x hx
  obtain ⟨y, hy, rfl⟩ := List.mem_map.1 hx
  exact bne_iff_ne.2 fun hname => h (List.mem_map.2 ⟨y, hy, hname.symm⟩)

/-- Members one after the other are read if their values are. -/
theorem readMembers_intercalate {f : Json → List Char} {g : Json → Json}
    {members : List (Text × Json)} (hne : members ≠ [])
    (hnodup : (members.map fun m => joined m.1).Nodup) (h : ∀ m ∈ members, Reads (f m.2) (g m.2))
    (fuel : Nat) (rest : List Char)
    (hfuel : (List.intercalate [',', ' '] (members.map fun m => memberText m.1 (f m.2))).length + 1
      < fuel) :
    readMembers fuel (List.intercalate [',', ' '] (members.map fun m => memberText m.1 (f m.2)) ++
        '\x7d' :: rest) =
      some (members.map fun m => (joined m.1, g m.2), rest) := by
  have hlength (m : Text × Json) : (f m.2).length ≤ (memberText m.1 (f m.2)).length := by
    rw [memberText, List.length_append]
    exact Nat.le_add_left _ _
  induction members generalizing fuel with
  | nil => exact absurd rfl hne
  | cons m members ih =>
      obtain ⟨fuel, rfl⟩ := Nat.exists_eq_succ_of_ne_zero (Nat.ne_zero_of_lt hfuel)
      have hm := hlength m
      cases members with
      | nil =>
          simp only [List.map_cons, List.map_nil, List.intercalate_singleton] at hfuel ⊢
          rw [readMembers_memberText m.1 (h m (.head _)) (by omega) (stops_cons (by simp) rest)]
          rfl
      | cons n members =>
          rw [List.map_cons, List.nodup_cons] at hnodup
          rw [List.map_cons, List.map_cons, List.intercalate_cons_cons,
            ← List.map_cons (f := fun m : Text × Json => memberText m.1 (f m.2))] at hfuel ⊢
          simp only [List.length_append, List.length_cons, List.length_nil] at hfuel
          have hmore := ih (List.cons_ne_nil _ _) hnodup.2 (fun x hx => h x (.tail _ hx)) fuel
            (by omega)
          have hnew := lookup_of_notMem (g := g) hnodup.1
          rw [List.append_assoc, List.append_assoc, List.cons_append, List.cons_append,
            List.nil_append,
            readMembers_memberText m.1 (h m (.head _)) (by omega) (stops_cons (by simp) _)]
          change (readMembers fuel (' ' :: _)).bind _ = _
          rw [readMembers_blank, hmore, Option.bind_some]
          dsimp only
          rw [hnew]
          rfl

/-! ## Brackets -/

/-- Brackets stand around what is between them. -/
theorem bracket_cons (depth : Nat) (opening closing : Char) (text : List Char)
    (texts : List (List Char)) : bracket .line depth opening closing (text :: texts) =
      opening :: (List.intercalate [',', ' '] (text :: texts) ++ [closing]) := rfl

/-- Texts with separators between them start with the first one. -/
theorem exists_intercalate (text : List Char) (texts : List (List Char)) :
    ∃ more, List.intercalate [',', ' '] (text :: texts) = text ++ more := by
  cases texts with
  | nil => exact ⟨[], by rw [List.intercalate_singleton, List.append_nil]⟩
  | cons other texts =>
      rw [List.intercalate_cons_cons, List.append_assoc]
      exact ⟨_, rfl⟩

theorem StartsValue.append {text : List Char} (h : StartsValue text) (rest : List Char) :
    StartsValue (text ++ rest) := by
  obtain ⟨c, cs, rfl, hspace, hclosing⟩ := h
  exact ⟨c, cs ++ rest, rfl, hspace, hclosing⟩

theorem readValue_items {text : List Char} (h : StartsValue text) (fuel : Nat) :
    readValue (fuel + 1) ('[' :: text) =
      (readItems fuel text).map fun p => (.list p.1, p.2) := by
  obtain ⟨c, cs, rfl, hspace, hclosing⟩ := h
  have hbracket : skip ('[' :: c :: cs) = '[' :: c :: cs := skip_cons (by decide) _
  rw [readValue, hbracket]
  simp [skip_cons hspace, hclosing]

theorem reads_list {f : Json → List Char} {g : Json → Json} {items : List Json}
    (h : ∀ v ∈ items, Reads (f v) (g v)) (hstart : ∀ v ∈ items, StartsValue (f v)) (depth : Nat) :
    Reads (bracket .line depth '[' ']' (items.map f)) (.list (items.map g)) := by
  refine reads_of_succ fun fuel rest hfuel hrest => ?_
  cases items with
  | nil => rfl
  | cons v items =>
      have hread := readItems_intercalate (List.cons_ne_nil v items) h fuel rest
      obtain ⟨more, hmore⟩ := exists_intercalate (f v) (items.map f)
      rw [List.map_cons, bracket_cons, hmore] at hfuel ⊢
      simp only [List.length_cons, List.length_append, List.length_nil] at hfuel
      rw [List.map_cons, hmore] at hread
      have hstarts : StartsValue (f v ++ more ++ ']' :: rest) :=
        ((hstart v (.head _)).append _).append _
      rw [List.cons_append, List.append_assoc _ [']'], List.singleton_append,
        readValue_items hstarts, hread (by rw [List.length_append]; omega)]
      rfl

theorem reads_object {f : Json → List Char} {g : Json → Json} {members : List (Text × Json)}
    (hnodup : (members.map fun m => joined m.1).Nodup) (h : ∀ m ∈ members, Reads (f m.2) (g m.2))
    (depth : Nat) :
    Reads (bracket .line depth '\x7b' '\x7d' (members.map fun m => memberText m.1 (f m.2)))
      (.object (members.map fun m => (joined m.1, g m.2))) := by
  refine reads_of_succ fun fuel rest hfuel hrest => ?_
  cases members with
  | nil => rfl
  | cons m members =>
      have hread := readMembers_intercalate (List.cons_ne_nil m members) hnodup h fuel rest
      obtain ⟨more, hmore⟩ := exists_intercalate (memberText m.1 (f m.2))
        (members.map fun m => memberText m.1 (f m.2))
      rw [List.map_cons, bracket_cons, hmore] at hfuel ⊢
      simp only [List.length_cons, List.length_append, List.length_nil] at hfuel
      rw [List.map_cons, hmore] at hread
      rw [List.cons_append, List.append_assoc _ ['\x7d'], List.singleton_append]
      exact congrArg (Option.map _) (hread (by rw [List.length_append]; omega))

/-! ## Written values -/

theorem renderItems_eq (layout : Layout) (depth : Nat) (items : List Json) :
    renderItems layout depth items = items.map (renderAt layout depth) := by
  induction items with
  | nil => rfl
  | cons item items ih => rw [renderItems, ih, List.map_cons]

theorem renderMembers_eq (layout : Layout) (depth : Nat) (members : List (Text × Json)) :
    renderMembers layout depth members =
      members.map fun m => (m.1, memberText m.1 (renderAt layout depth m.2)) := by
  induction members with
  | nil => rfl
  | cons m members ih =>
      rw [renderMembers, ih, List.map_cons]
      rfl

theorem renderAt_list (layout : Layout) (depth : Nat) (items : List Json) :
    renderAt layout depth (.list items) =
      bracket layout depth '[' ']' (items.map (renderAt layout (depth + 1))) := by
  rw [renderAt, renderItems_eq]

/-- The members of an object are written in the order of their names. -/
theorem renderAt_object (layout : Layout) (depth : Nat) (members : List (Text × Json)) :
    renderAt layout depth (.object members) =
      bracket layout depth '\x7b' '\x7d' ((sortOn (fun m => m.1) members).map fun m =>
        memberText m.1 (renderAt layout (depth + 1) m.2)) := by
  rw [renderAt, renderMembers_eq, Text.sortOn_map
    (f := fun m : Text × Json => (m.1, memberText m.1 (renderAt layout (depth + 1) m.2)))
    fun _ => rfl, List.map_map]
  rfl

theorem startsValue_bracket (layout : Layout) (depth : Nat) {opening closing : Char}
    (h : isSpace opening = false ∧ opening ≠ ']') (texts : List (List Char)) :
    StartsValue (bracket layout depth opening closing texts) := by
  have hshape : ∃ cs, bracket layout depth opening closing texts = opening :: cs := by
    cases texts with
    | nil => exact ⟨_, rfl⟩
    | cons text texts => cases layout <;> exact ⟨_, rfl⟩
  obtain ⟨cs, hcs⟩ := hshape
  exact ⟨opening, cs, hcs, h⟩

/-- A value whose numbers are finite, and whose objects have distinct names, also when halves
are joined. -/
inductive IsLegible : Json → Prop where
  | null : IsLegible .null
  | bool (b : Bool) : IsLegible (.bool b)
  | number {n : Number} (h : n.IsFinite) : IsLegible (.number n)
  | text (s : Text) : IsLegible (.text s)
  | list {items : List Json} (h : ∀ v ∈ items, IsLegible v) : IsLegible (.list items)
  | object {members : List (Text × Json)} (hnodup : (members.map fun m => joined m.1).Nodup)
      (h : ∀ m ∈ members, IsLegible m.2) : IsLegible (.object members)

theorem IsReadable.isLegible {p : Text → Prop} {v : Json} (h : IsReadable p v) : IsLegible v := by
  induction h with
  | null => exact .null
  | bool b => exact .bool b
  | int n => exact .number trivial
  | text hs => exact .text _
  | list h ih => exact .list ih
  | object hnodup hnames h ih => exact .object hnodup ih

/-- The members of an object have the names of a list. -/
theorem isLegible_of_names {members : List (Text × Json)} (names : List Text)
    (hnames : members.map Prod.fst = names) (hdistinct : (names.map joined).Nodup)
    (hvalues : ∀ v ∈ members.map Prod.snd, v.IsLegible) : (Json.object members).IsLegible :=
  .object (by rwa [← hnames, List.map_map] at hdistinct)
    fun m hm => hvalues _ (List.mem_map_of_mem hm)

theorem isLegible_textOrNull (s : Option Text) : (textOrNull s).IsLegible := by
  cases s with
  | none => exact .null
  | some s => exact .text s

theorem isLegible_list {α : Type} {f : α → Json} {items : List α}
    (h : ∀ x ∈ items, (f x).IsLegible) : (Json.list (items.map f)).IsLegible := by
  refine .list fun v hv => ?_
  obtain ⟨x, hx, rfl⟩ := List.mem_map.1 hv
  exact h x hx

theorem IsLegible.startsValue {v : Json} (h : IsLegible v) (layout : Layout) (depth : Nat) :
    StartsValue (renderAt layout depth v) := by
  cases h with
  | null => exact ⟨_, _, rfl, by decide⟩
  | bool b => cases b <;> exact ⟨_, _, rfl, by decide⟩
  | number h =>
      rw [renderAt]
      obtain ⟨d, ds, hd, htext | htext⟩ := exists_digit h
      · exact ⟨d, ds, htext, isSpace_of_isDigit hd, isDigit_ne hd (by decide)⟩
      · exact ⟨'-', d :: ds, htext, by decide⟩
  | text s => exact ⟨_, _, rfl, by decide⟩
  | list h =>
      rw [renderAt_list]
      exact startsValue_bracket layout depth (by decide) _
  | object hnodup h =>
      rw [renderAt_object]
      exact startsValue_bracket layout depth (by decide) _

/-- A written value is read back, wherever it stands. -/
theorem IsLegible.reads {v : Json} (h : IsLegible v) (depth : Nat) :
    Reads (renderAt .line depth v) v.reread := by
  induction h generalizing depth with
  | null => exact reads_null
  | bool b => exact reads_bool b
  | number h => exact reads_number h
  | text s => exact reads_text s
  | list h ih =>
      rw [renderAt_list, reread, orderedWith_list]
      exact reads_list (fun v hv => ih v hv _) (fun v hv => (h v hv).startsValue _ _) depth
  | @object members hnodup h ih =>
      -- both sides sort the members, and what is known of them does not depend on their order
      rw [renderAt_object, reread, orderedWith_object]
      have hperm := Text.sortOn_perm (fun m : Text × Json => m.1) members
      refine reads_object ((hperm.map _).nodup_iff.2 hnodup) (fun m hm => ?_) depth
      exact ih m (hperm.mem_iff.1 hm) _

/-- A value that is written on one line is read back. -/
theorem parse?_render {v : Json} (h : IsLegible v) :
    parse? (v.render .line) = some v.reread := by
  have hread := h.reads 0 ((renderAt .line 0 v).length + 1) [] (Nat.lt_succ_self _) stops_nil
  rw [List.append_nil] at hread
  rw [parse?, render, String.toList_ofList, hread]
  rfl

/-! ## Texts of a value -/

mutual

/-- The texts in a value, names among them. -/
def strings : Json → List Text
  | .text s => [s]
  | .list items => itemStrings items
  | .object members => memberStrings members
  | _ => []

/-- The texts in the items of an array. -/
def itemStrings : List Json → List Text
  | [] => []
  | item :: items => strings item ++ itemStrings items

/-- The names of members and the texts in their values. -/
def memberStrings : List (Text × Json) → List Text
  | [] => []
  | (name, value) :: members => name :: strings value ++ memberStrings members

end

theorem strings_subset_list {items : List Json} {v : Json} (hv : v ∈ items) :
    v.strings ⊆ (Json.list items).strings := by
  rw [strings]
  induction items with
  | nil => cases hv
  | cons item items ih =>
      rw [itemStrings]
      rcases List.mem_cons.1 hv with rfl | hv
      · exact List.subset_append_left _ _
      · exact List.subset_append_of_subset_right _ (ih hv)

theorem strings_subset_object {members : List (Text × Json)} {m : Text × Json} (hm : m ∈ members) :
    m.1 :: m.2.strings ⊆ (Json.object members).strings := by
  rw [strings]
  induction members with
  | nil => cases hm
  | cons other members ih =>
      rw [memberStrings]
      rcases List.mem_cons.1 hm with rfl | hm
      · exact List.subset_append_left _ _
      · exact List.subset_append_of_subset_right _ (ih hm)

/-- Without halves to join a value is read back in order. -/
theorem IsLegible.reread_eq {v : Json} (h : IsLegible v) (hsettled : ∀ t ∈ v.strings, t.IsSettled) :
    v.reread = v.ordered := by
  unfold reread ordered
  induction h with
  | null | bool b | number h => rfl
  | text s => exact congrArg Json.text (hsettled s (by simp [strings]))
  | list h ih =>
      rw [orderedWith_list, orderedWith_list]
      exact congrArg Json.list (List.map_congr_left fun v hv =>
        ih v hv fun t ht => hsettled t (strings_subset_list hv ht))
  | object hnodup h ih =>
      rw [orderedWith_object, orderedWith_object]
      refine congrArg Json.object (List.map_congr_left fun m hm => ?_)
      have hmem := (Text.sortOn_perm _ _).mem_iff.1 hm
      have htexts := strings_subset_object hmem
      rw [ih m hmem fun t ht => hsettled t (htexts (.tail _ ht))]
      exact congrArg (·, _) (hsettled m.1 (htexts (.head _)))

/-- The value of a member is found under its name if no other member has that name. -/
theorem lookup_of_mem {members : List (Text × Json)} (hnodup : (members.map Prod.fst).Nodup)
    {m : Text × Json} (hm : m ∈ members) : members.lookup m.1 = some m.2 := by
  obtain ⟨front, back, rfl⟩ := List.append_of_mem hm
  rw [List.map_append, List.map_cons, List.nodup_append] at hnodup
  rw [List.lookup_eq_some_iff]
  refine ⟨front, back, rfl, fun p hp => bne_iff_ne.2 fun heq => ?_⟩
  exact hnodup.2.2 _ (List.mem_map_of_mem hp) _ (.head _) heq.symm

/-- A member is read back under its name. -/
theorem IsLegible.member?_reread {members : List (Text × Json)} (h : IsLegible (.object members))
    {m : Text × Json} (hm : m ∈ members) (hname : m.1.IsSettled) :
    (Json.object members).reread.member? m.1 = some m.2.reread := by
  cases h with
  | object hnodup h =>
      have hperm := Text.sortOn_perm (fun m : Text × Json => m.1) members
      have hmem : (m.1, m.2.reread) ∈
          (sortOn (fun m => m.1) members).map fun m => (joined m.1, m.2.reread) :=
        List.mem_map.2 ⟨m, hperm.mem_iff.2 hm, congrArg (·, _) hname⟩
      rw [reread, orderedWith_object]
      refine lookup_of_mem ?_ hmem
      rw [List.map_map]
      exact (hperm.map _).nodup_iff.2 hnodup

/-! ## Written characters -/

/-- The characters that a layout writes: those that are visible, and the line end in a block. -/
def IsWritten (layout : Layout) (c : Char) : Prop := IsVisible c ∨ layout = .block ∧ c = '\n'

theorem isVisible_of_all {cs : List Char} (h : (cs.all fun c => decide (IsVisible c)) = true) :
    ∀ c ∈ cs, IsVisible c := fun c hc => of_decide_eq_true (List.all_eq_true.1 h c hc)

/-- A number is written with visible characters, whatever it is. -/
theorem isVisible_number (n : Number) : ∀ c ∈ (renderNumber n).toList, IsVisible c := by
  cases n with
  | int n => exact isVisible_renderNumber_int n
  | float x =>
      cases hparts : Parts.ofFloat x with
      | finite negative m e => exact isVisible_renderNumber ⟨negative, m, e, hparts⟩
      | infinite negative =>
          rw [renderNumber, hparts]
          cases negative <;> exact isVisible_of_all rfl
      | nan =>
          rw [renderNumber, hparts]
          exact isVisible_of_all rfl

section

variable {layout : Layout} {texts : List (List Char)}

theorem isWritten_intercalate (sep : List Char) (hsep : ∀ c ∈ sep, IsWritten layout c)
    (h : ∀ text ∈ texts, ∀ c ∈ text, IsWritten layout c) :
    ∀ c ∈ List.intercalate sep texts, IsWritten layout c := by
  induction texts with
  | nil => simp
  | cons text texts ih =>
      have hmore := ih fun other hother => h other (.tail _ hother)
      cases texts with
      | nil => simpa using h text (.head _)
      | cons other texts =>
          rw [List.intercalate_cons_cons]
          intro c hc
          rcases List.mem_append.1 hc with hc | hc
          · exact (List.mem_append.1 hc).elim (h text (.head _) c) (hsep c)
          · exact hmore c hc

theorem isWritten_lineAt (depth : Nat) : ∀ c ∈ lineAt depth, IsWritten .block c := by
  intro c hc
  rcases List.mem_cons.1 hc with rfl | hc
  · exact .inr ⟨rfl, rfl⟩
  · rw [List.eq_of_mem_replicate hc]
    exact .inl (by decide)

theorem isWritten_bracket (depth : Nat) {opening closing : Char}
    (hbrackets : IsVisible opening ∧ IsVisible closing)
    (h : ∀ text ∈ texts, ∀ c ∈ text, IsWritten layout c) :
    ∀ c ∈ bracket layout depth opening closing texts, IsWritten layout c := by
  obtain ⟨hopening, hclosing⟩ := hbrackets
  have hcomma : IsVisible ',' := by decide
  cases texts with
  | nil =>
      intro c hc
      simp only [bracket, List.mem_cons, List.not_mem_nil, or_false] at hc
      rcases hc with rfl | rfl
      · exact .inl hopening
      · exact .inl hclosing
  | cons text texts =>
      cases layout with
      | line =>
          have hinside := isWritten_intercalate [',', ' ']
            (fun c hc => .inl (isVisible_of_all (by decide) c hc)) h
          intro c hc
          rw [bracket_cons, List.mem_cons, List.mem_append, List.mem_singleton] at hc
          rcases hc with rfl | hc | rfl
          · exact .inl hopening
          · exact hinside c hc
          · exact .inl hclosing
      | block =>
          have hinside := isWritten_intercalate (',' :: lineAt (depth + 1))
            (List.forall_mem_cons.2 ⟨.inl hcomma, isWritten_lineAt (depth + 1)⟩) h
          intro c hc
          simp only [bracket, List.cons_append, List.mem_cons, List.mem_append, List.not_mem_nil,
            or_false, or_assoc] at hc
          rcases hc with rfl | hc | hc | hc | rfl
          · exact .inl hopening
          · exact isWritten_lineAt (depth + 1) c hc
          · exact hinside c hc
          · exact isWritten_lineAt depth c hc
          · exact .inl hclosing

end

mutual

/-- A value is written with the characters of the layout only. -/
theorem isWritten_renderAt (layout : Layout) (depth : Nat) :
    ∀ v : Json, ∀ c ∈ renderAt layout depth v, IsWritten layout c
  | .null => fun c hc => .inl (isVisible_of_all rfl c hc)
  | .bool b => fun c hc => .inl (isVisible_of_all (by cases b <;> rfl) c hc)
  | .number n => fun c hc => .inl (isVisible_number n c hc)
  | .text s => fun c hc => .inl (isVisible_renderText s c hc)
  | .list items => by
      rw [renderAt]
      exact isWritten_bracket depth (by decide) (isWritten_renderItems layout (depth + 1) items)
  | .object members => by
      rw [renderAt]
      refine isWritten_bracket depth (by decide) fun text htext => ?_
      obtain ⟨m, hm, rfl⟩ := List.mem_map.1 htext
      exact isWritten_renderMembers layout (depth + 1) members m
        ((Text.sortOn_perm _ _).mem_iff.1 hm)

theorem isWritten_renderItems (layout : Layout) (depth : Nat) :
    ∀ items : List Json, ∀ text ∈ renderItems layout depth items,
      ∀ c ∈ text, IsWritten layout c
  | [] => by simp [renderItems]
  | item :: items => by
      rw [renderItems]
      exact List.forall_mem_cons.2 ⟨isWritten_renderAt layout depth item,
        isWritten_renderItems layout depth items⟩

theorem isWritten_renderMembers (layout : Layout) (depth : Nat) :
    ∀ members : List (Text × Json), ∀ m ∈ renderMembers layout depth members,
      ∀ c ∈ m.2, IsWritten layout c
  | [] => by simp [renderMembers]
  | (name, value) :: members => by
      rw [renderMembers]
      refine List.forall_mem_cons.2 ⟨fun c hc => ?_, isWritten_renderMembers layout depth members⟩
      rw [List.mem_append, List.mem_append] at hc
      rcases hc with (hc | hc) | hc
      · exact .inl (isVisible_renderText _ c hc)
      · exact .inl (isVisible_of_all (by decide) c hc)
      · exact isWritten_renderAt layout depth value c hc

end

/-- A value is written on one line with visible characters only. -/
theorem isVisible_renderAt (depth : Nat) (v : Json) : ∀ c ∈ renderAt .line depth v, IsVisible c :=
  fun c hc => (isWritten_renderAt .line depth v c hc).resolve_right (by simp)

/-- A value is written in ASCII. -/
theorem isAscii_render (layout : Layout) (v : Json) :
    ∀ c ∈ (v.render layout).toList, c.toNat < 0x80 := by
  intro c hc
  rw [render, String.toList_ofList] at hc
  rcases isWritten_renderAt layout 0 v c hc with hvisible | ⟨-, rfl⟩
  · exact hvisible.2.trans (by decide)
  · decide

end Bindery.Json
