import Bindery.Value.Basic

/-!
# The order of sets

A set shows its members in an order of its own.  Whole numbers are spread over
slots, each in the slot of its remainder, and shown slot by slot.  There are
eight slots for up to four members, and otherwise the least power of two that is
more than twice their number.  Other members are shown as they were added.

`mem_arrange` says that the members stay what they are.
-/

namespace Bindery.Value

/-- The number of slots for some members. -/
def slotCount (members : Nat) : Nat :=
  if members < 5 then 8 else Nat.nextPowerOfTwo (2 * members + 1)

/-- The whole number a value counts as, if it does. -/
def whole? (v : Value) : Option Int :=
  match v.number? with
  | some (.int n) => some n
  | some (.float x) =>
      let parts := Parts.ofFloat x
      if parts.isWhole then parts.truncate? else none
  | none => none

/-- The slot of a value among some slots. -/
def slot (size : Nat) (v : Value) : Nat := ((v.whole?.getD 0) % (size : Int)).toNat

/-- Items in the order in which a set shows their values. -/
def arrange {α : Type} (value : α → Value) (items : List α) : List α :=
  let size := slotCount items.length
  if items.all fun x => (value x).whole?.isSome then
    (List.range size).flatMap fun i => items.filter fun x => (value x).slot size == i
  else items

/-! ## Members -/

theorem slotCount_pos (members : Nat) : 0 < slotCount members := by
  rw [slotCount]
  split
  · decide
  · exact Nat.pos_of_isPowerOfTwo (Nat.isPowerOfTwo_nextPowerOfTwo _)

theorem slot_lt {size : Nat} (h : 0 < size) (v : Value) : v.slot size < size := by
  have hpos : (0 : Int) < (size : Int) := Int.natCast_pos.mpr h
  rw [slot, Int.toNat_lt (Int.emod_nonneg _ (Int.ne_of_gt hpos))]
  exact Int.emod_lt_of_pos _ hpos

theorem mem_arrange {α : Type} (value : α → Value) (items : List α) (x : α) :
    x ∈ arrange value items ↔ x ∈ items := by
  simp only [arrange]
  split
  · simp [List.mem_flatMap, slot_lt (slotCount_pos _)]
  · exact Iff.rfl

/-! ## Tests -/

example : arrange .number [.int 8, .int 3, .int (-1)] = [.int 8, .int 3, .int (-1)] := by
  decide +kernel
example : arrange .number [.int 3, .int 17, .float 2.0] = [.int 17, .float 2.0, .int 3] := by
  decide +kernel
example : arrange .bool [true, false] = [false, true] := by decide +kernel
example : arrange .bytes [[2], [1]] = [[2], [1]] := by decide +kernel

end Bindery.Value
