import Bindery.Text.Encoding

/-!
# The standard output

The program prints rows of text.  An `Output` is where they go.  It has a code of
its own, and a row with a character that the code lacks is a fault, with nothing
of the row printed.  Every code has the characters of ASCII.

`Output.utf8` is what a program has by default, and lacks the halves of surrogate
pairs.  `Output.memory` is a buffer that takes any text.
-/

namespace Bindery.CommandLine

/-- Where rows are printed. -/
structure Output where
  /-- What is said of a row that has no code, if it has none. -/
  fault? : Text → Option String
  /-- Rows of ASCII characters have a code. -/
  ascii (row : String) : (∀ c ∈ row.toList, c.toNat < 0x80) → fault? (Text.ofString row) = none

namespace Output

/-- A buffer that takes all rows. -/
def memory : Output := ⟨fun _ => none, fun _ _ => rfl⟩

/-- A code that takes all characters takes the rows of characters. -/
theorem faultFrom?_ofChars {takes : CodePoint → Bool} (h : ∀ c, takes (.char c) = true)
    (position : Nat) (cs : List Char) :
    Text.faultFrom? takes position (Text.ofChars cs) = none := by
  induction cs generalizing position with
  | nil => rfl
  | cons c cs ih =>
      change (if takes (.char c) then _ else _) = _
      rw [if_pos (h c)]
      exact ih (position + 1)

/-- A file or a terminal for characters. -/
def utf8 : Output where
  fault? row := (Text.strictFault? row).map Text.EncodeFault.message
  ascii row _ := congrArg _ (faultFrom?_ofChars (fun _ => rfl) 0 row.toList)

/-- What is printed of rows, and the fault of the first row that has no code. -/
def print (out : Output) : List Text → Text × Option String
  | [] => ([], none)
  | row :: rows =>
      match out.fault? row with
      | some fault => ([], some fault)
      | none =>
          let (text, fault) := out.print rows
          (row ++ "\n" ++ text, fault)

/-! ## Tests -/

example : (utf8.print ["a", "é", [.half 0], "b"]).1 = Text.ofString "a\né\n" := by decide +kernel
example : (utf8.print ["a", [.half 0]]).2 =
    some ("'utf-8' codec can't encode character '\\ud800' in position 0: " ++
      "surrogates not allowed") := by decide +kernel

end Output
end Bindery.CommandLine
