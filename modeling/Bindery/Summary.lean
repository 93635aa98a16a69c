import Bindery.Value.Text

/-!
# Summaries

A summary has a row for each stage that was done.  A `SummaryRow` is what such a
row is made of, and nothing is known about its parts.  Its details are set on top
of the other parts: the members of an object, or pairs of a name and a value.

`SummaryRow.toJson` is the row as an object.  It fails if the details are neither.
-/

namespace Bindery

/-- A row of a summary. -/
structure SummaryRow where
  /-- The name. -/
  name : Json
  /-- The status. -/
  status : Json := .text "ok"
  /-- The reason for the status. -/
  reason : Json := .text []
  /-- More about it. -/
  details : Json := .object []
deriving Repr

namespace SummaryRow

/-! ## Details -/

/-- Why details cannot be set. -/
inductive Fault where
  /-- They are no pairs, or the name in a pair is a collection. -/
  | notPairs
  /-- An item has not two parts. -/
  | wrongLength (index length : Nat)
deriving DecidableEq, Repr

/-- The words for a fault. -/
def Fault.message : Fault → String
  | .notPairs => "the details are no pairs"
  | .wrongLength index length =>
      "dictionary update sequence element #" ++ toString index ++ " has length " ++
        toString length ++ "; 2 is required"

/-- The name that a value gives to a member, if it is no collection. -/
def memberName? : Json → Option Text
  | .text s => some s
  | .list _ | .object _ => none
  | v => some (Value.ofJson v).plain

/-- The member that an item stands for. -/
def member (index : Nat) (item : Json) : Except Fault (Text × Json) :=
  match item.parts? with
  | none => .error .notPairs
  | some [key, value] =>
      match memberName? key with
      | some name => .ok (name, value)
      | none => .error .notPairs
  | some parts => .error (.wrongLength index parts.length)

/-- The members that items stand for, the first of which has an index. -/
def members (index : Nat) : List Json → Except Fault (List (Text × Json))
  | [] => .ok []
  | item :: items => do return (← member index item) :: (← members (index + 1) items)

/-- The members of details. -/
def detailsOf : Json → Except Fault (List (Text × Json))
  | .object members => .ok members
  | v =>
      match v.parts? with
      | some items => members 0 items
      | none => .error .notPairs

/-! ## Rows -/

/-- A row as a JSON object with details on top.  A reason that is nothing is left out. -/
def withDetails (r : SummaryRow) (details : List (Text × Json)) : Json :=
  let reason : List (Text × Json) := if r.reason.isVoid then [] else [("reason", r.reason)]
  .object (Json.putAll (("name", r.name) :: ("status", r.status) :: reason) details)

/-- A row as a JSON object. -/
def toJson (r : SummaryRow) : Except Fault Json := (detailsOf r.details).map r.withDetails

/-- A row with one part set by name, or none if the name is unknown. -/
def set? (r : SummaryRow) (part : Text) (v : Json) : Option SummaryRow :=
  if part = "name" then some { r with name := v }
  else if part = "status" then some { r with status := v }
  else if part = "reason" then some { r with reason := v }
  else if part = "details" then some { r with details := v }
  else none

/-- A row with some parts set by name, or none if a name is unknown. -/
def assign? (r : SummaryRow) : List (Text × Json) → Option SummaryRow
  | [] => some r
  | (part, v) :: parts => do (← r.set? part v).assign? parts

/-- The row with the given parts, among which there must be a name. -/
def ofParts? (parts : List (Text × Json)) : Option SummaryRow := do
  ({ name := ← Json.valueOf? "name" parts } : SummaryRow).assign? parts

/-! ## Tests -/

example : detailsOf (.text "") = .ok [] := by rfl
example : (detailsOf (.list [.text "ab", .list [.int 1]])).toOption.isNone = true := by decide
example : member 3 (.text "abc") = .error (.wrongLength 3 3) := by rfl

end SummaryRow
end Bindery
