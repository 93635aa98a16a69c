import Bindery.Proofs.Json.Text

/-!
# Values in order

A written object has its members in the order of their names.  `ordered` is a value with all
its objects in that order, and `reread` is what is read of a written value: it also has the
halves of surrogate pairs joined.

A value is readable if it holds no binary number and if the names in its objects are distinct.
If its texts are settled, nothing but the order changes (`IsReadable.reread_eq`).
-/

namespace Bindery

namespace Text

variable {α β : Type}

theorem insertOn_map {key : α → Text} {key' : β → Text} {f : α → β} (h : ∀ x, key' (f x) = key x)
    (x : α) (xs : List α) : insertOn key' (f x) (xs.map f) = (insertOn key x xs).map f := by
  induction xs with
  | nil => rfl
  | cons y ys ih =>
      rw [List.map_cons, insertOn, insertOn, h, h, ih]
      split <;> rfl

/-- Sorting looks at the keys only. -/
theorem sortOn_map {key : α → Text} {key' : β → Text} {f : α → β} (h : ∀ x, key' (f x) = key x)
    (xs : List α) : sortOn key' (xs.map f) = (sortOn key xs).map f := by
  induction xs with
  | nil => rfl
  | cons x xs ih =>
      change insertOn key' (f x) (sortOn key' (xs.map f)) = _
      rw [ih, insertOn_map h]
      rfl

end Text

namespace Json

open Text (joined sortOn)

/-! ## Values as they are read -/

mutual

/-- A value with the members of every object in the order of their names, and with its texts
changed. -/
def orderedWith (f : Text → Text) : Json → Json
  | .text s => .text (f s)
  | .list items => .list (orderedItems f items)
  | .object members =>
      .object ((sortOn (fun m => m.1) (orderedMembers f members)).map fun m => (f m.1, m.2))
  | v => v

/-- The items of an array in such an order. -/
def orderedItems (f : Text → Text) : List Json → List Json
  | [] => []
  | item :: items => orderedWith f item :: orderedItems f items

/-- The members of an object, with their values in such an order. -/
def orderedMembers (f : Text → Text) : List (Text × Json) → List (Text × Json)
  | [] => []
  | (name, value) :: members => (name, orderedWith f value) :: orderedMembers f members

end

/-- A value with the members of every object in the order of their names. -/
def ordered (v : Json) : Json := v.orderedWith id

/-- A value as it is read back: in order, and with the halves in its texts joined. -/
def reread (v : Json) : Json := v.orderedWith joined

theorem orderedItems_eq (f : Text → Text) (items : List Json) :
    orderedItems f items = items.map (orderedWith f) := by
  induction items with
  | nil => rfl
  | cons item items ih => rw [orderedItems, ih, List.map_cons]

theorem orderedMembers_eq (f : Text → Text) (members : List (Text × Json)) :
    orderedMembers f members = members.map fun m => (m.1, m.2.orderedWith f) := by
  induction members with
  | nil => rfl
  | cons m members ih => rw [orderedMembers, ih, List.map_cons]

theorem orderedWith_list (f : Text → Text) (items : List Json) :
    orderedWith f (.list items) = .list (items.map (orderedWith f)) := by
  rw [orderedWith, orderedItems_eq]

/-- The members of an object change their order only. -/
theorem orderedWith_object (f : Text → Text) (members : List (Text × Json)) :
    orderedWith f (.object members) =
      .object ((sortOn (fun m => m.1) members).map fun m => (f m.1, m.2.orderedWith f)) := by
  rw [orderedWith, orderedMembers_eq,
    Text.sortOn_map (f := fun m : Text × Json => (m.1, m.2.orderedWith f)) fun _ => rfl,
    List.map_map]
  rfl

/-- A value without binary numbers whose texts are of a kind, and whose objects have distinct
names, also when halves are joined. -/
inductive IsReadable (p : Text → Prop) : Json → Prop where
  | null : IsReadable p .null
  | bool (b : Bool) : IsReadable p (.bool b)
  | int (n : Int) : IsReadable p (.int n)
  | text {s : Text} (h : p s) : IsReadable p (.text s)
  | list {items : List Json} (h : ∀ v ∈ items, IsReadable p v) : IsReadable p (.list items)
  | object {members : List (Text × Json)} (hnodup : (members.map fun m => joined m.1).Nodup)
      (hnames : ∀ m ∈ members, p m.1) (h : ∀ m ∈ members, IsReadable p m.2) :
      IsReadable p (.object members)

/-- Without halves to join a value is read back in order. -/
theorem IsReadable.reread_eq {v : Json} (h : IsReadable Text.IsSettled v) :
    v.reread = v.ordered := by
  unfold reread ordered
  induction h with
  | null | bool b | int n => rfl
  | text hs => exact congrArg Json.text hs
  | list h ih =>
      rw [orderedWith_list, orderedWith_list]
      exact congrArg Json.list (List.map_congr_left ih)
  | object hnodup hnames h ih =>
      rw [orderedWith_object, orderedWith_object]
      refine congrArg Json.object (List.map_congr_left fun m hm => ?_)
      have hmem := (Text.sortOn_perm _ _).mem_iff.1 hm
      rw [ih m hmem]
      exact congrArg (·, _) (hnames m hmem)

end Json
end Bindery
