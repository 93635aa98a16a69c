import Bindery.Text.Quoted

/-!
# Texts as bytes

The system takes the names of files as bytes.  A character has its bytes of
UTF-8.  The halves of surrogate pairs from U+DC80 to U+DCFF stand for one byte
each, which is part of no character.  The other halves have no bytes, and a text
with one of them names nothing the system knows.

`encodeFault?` finds the first of them, and reports it together with the halves
that follow without a gap.  `strictFault?` does so for the code of files and
terminals, where no half has bytes.
-/

namespace Bindery.Text

/-- The code point is a half of a surrogate pair. -/
def isHalf : CodePoint → Bool
  | .char _ => false
  | .half _ => true

/-- The number of bytes of a code point, if it has any. -/
def bytesOf? : CodePoint → Option Nat
  | .char c => some c.utf8Size
  | .half index => if 0x480 ≤ index.val && index.val ≤ 0x4FF then some 1 else none

/-- The number of bytes of a text. -/
def byteCount (s : Text) : Nat := s.foldl (fun n x => n + (bytesOf? x).getD 0) 0

/-- Halves of surrogate pairs that have no bytes. -/
structure EncodeFault where
  /-- The first of them. -/
  first : CodePoint
  /-- Its position. -/
  start : Nat
  /-- The position behind the last of them. -/
  stop : Nat
deriving DecidableEq, Repr

/-- The first fault of a text that starts at a position, in a code that takes some code
points. -/
def faultFrom? (takes : CodePoint → Bool) (position : Nat) : Text → Option EncodeFault
  | [] => none
  | x :: rest =>
      if takes x then faultFrom? takes (position + 1) rest
      else some ⟨x, position, position + 1 + (rest.takeWhile isHalf).length⟩

/-- The first fault of a text as a name. -/
def encodeFault? (s : Text) : Option EncodeFault := faultFrom? (fun x => (bytesOf? x).isSome) 0 s

/-- The first fault of a text that is written to a file or a terminal. -/
def strictFault? (s : Text) : Option EncodeFault := faultFrom? (fun x => !isHalf x) 0 s

/-- The words for code points from one position up to another that a code lacks. -/
def lackWords (first : CodePoint) (start stop : Nat) : String :=
  if stop == start + 1 then
    "character '" ++ String.ofList (escapeCode first.code) ++ "' in position " ++ toString start
  else "characters in position " ++ toString start ++ "-" ++ toString (stop - 1)

/-- The report of a fault. -/
def EncodeFault.message (f : EncodeFault) : String :=
  "'utf-8' codec can't encode " ++ lackWords f.first f.start f.stop ++ ": surrogates not allowed"

/-! ## Tests -/

example : byteCount (.half 0x480 :: "é€" : Text) = 6 := by decide
example : encodeFault? ['a', .half 0x480, .half 0, .half 0x481, 'b'] = some ⟨.half 0, 2, 4⟩ := by
  decide
example : strictFault? ['a', .half 0x480, .half 0, 'b'] = some ⟨.half 0x480, 1, 3⟩ := by
  decide

end Bindery.Text
