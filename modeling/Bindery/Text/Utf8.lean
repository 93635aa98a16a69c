/-!
# UTF-8

Files and captured output arrive as bytes.  `pieces` cuts a byte string into
scalar values and faults.  A fault is a longest front of bytes that no
well-formed text continues, so the bytes `F0 9F 92` at the end of a text are
one fault and `C0 80` are two.

Captured output is read leniently: `decodeLossy` writes U+FFFD for each fault.
A file is read strictly and in chunks.  `readPieces` reads the pieces of one chunk
and leaves what the next chunk has to complete.  The position in a `Fault` counts
from the first byte the decoder then holds.
-/

namespace Bindery.Text.Utf8

/-! ## Pieces -/

/-- What is wrong with a run of bytes. -/
inductive Reason where
  /-- The byte starts no character. -/
  | invalidStart
  /-- The byte after the run does not continue it. -/
  | invalidContinuation
  /-- The bytes end inside a character. -/
  | unexpectedEnd
deriving DecidableEq, Repr

/-- A scalar value with the number of its bytes, or a run of bytes that is none. -/
inductive Piece where
  /-- A scalar value. -/
  | scalar (c : Char) (width : Nat)
  /-- Bytes that are no scalar value. -/
  | fault (reason : Reason) (bytes : List UInt8)
deriving DecidableEq, Repr

/-- The bytes of a fault. -/
def Piece.bytes : Piece → List UInt8
  | .scalar _ _ => []
  | .fault _ bytes => bytes

/-- A byte that continues a character. -/
def isTail (b : UInt8) : Bool := 0x80 ≤ b && b ≤ 0xBF

/-- The second bytes that may follow a first byte.  The bounds leave out overlong
forms, surrogates and what lies above U+10FFFF. -/
def isSecond (first b : UInt8) : Bool :=
  if first == 0xE0 then 0xA0 ≤ b && b ≤ 0xBF
  else if first == 0xED then 0x80 ≤ b && b ≤ 0x9F
  else if first == 0xF0 then 0x90 ≤ b && b ≤ 0xBF
  else if first == 0xF4 then 0x80 ≤ b && b ≤ 0x8F
  else isTail b

/-- The low six bits of a byte. -/
def tailBits (b : UInt8) : Nat := b.toNat % 64

/-- The scalar values and faults of a byte string, in order. -/
def pieces : List UInt8 → List Piece
  | [] => []
  | a :: rest =>
      if a < 0x80 then .scalar (Char.ofNat a.toNat) 1 :: pieces rest
      else if a < 0xC2 || 0xF4 < a then .fault .invalidStart [a] :: pieces rest
      else
        match rest with
        | [] => [.fault .unexpectedEnd [a]]
        | b :: rest =>
            if !isSecond a b then .fault .invalidContinuation [a] :: pieces (b :: rest)
            else if a < 0xE0 then
              .scalar (Char.ofNat (a.toNat % 32 * 64 + tailBits b)) 2 :: pieces rest
            else
              match rest with
              | [] => [.fault .unexpectedEnd [a, b]]
              | c :: rest =>
                  if !isTail c then .fault .invalidContinuation [a, b] :: pieces (c :: rest)
                  else if a < 0xF0 then
                    .scalar (Char.ofNat ((a.toNat % 16 * 64 + tailBits b) * 64 + tailBits c)) 3 ::
                      pieces rest
                  else
                    match rest with
                    | [] => [.fault .unexpectedEnd [a, b, c]]
                    | d :: rest =>
                        if !isTail d then
                          .fault .invalidContinuation [a, b, c] :: pieces (d :: rest)
                        else
                          .scalar (Char.ofNat
                            (((a.toNat % 8 * 64 + tailBits b) * 64 + tailBits c) * 64 +
                              tailBits d)) 4 :: pieces rest

/-! ## Lenient reading -/

/-- The characters of a byte string, with U+FFFD for each fault. -/
def decodeLossy (bytes : List UInt8) : List Char :=
  (pieces bytes).map fun
    | .scalar c _ => c
    | .fault _ _ => '\ufffd'

/-! ## Strict reading -/

/-- The first bytes of a file that are no character. -/
structure Fault where
  /-- What is wrong. -/
  reason : Reason
  /-- The bytes. -/
  bytes : List UInt8
  /-- Where they start. -/
  position : Nat
deriving DecidableEq, Repr

/-- The pieces are the first two bytes of a surrogate, which no text holds. -/
def isHalfSurrogate : List Piece → Bool
  | [.fault .invalidContinuation [0xED], .fault .invalidStart [b]] => 0xA0 ≤ b && b ≤ 0xBF
  | _ => false

/-- The characters of one chunk and the bytes at its end that the next chunk has
to complete, or whose fault the next chunk has to show.  `position` is the number
of bytes read before the pieces. -/
def readPieces (position : Nat) : List Piece → Except Fault (List Char × List UInt8)
  | [] => .ok ([], [])
  | .scalar c width :: rest =>
      (readPieces (position + width) rest).map fun (cs, left) => (c :: cs, left)
  | .fault .unexpectedEnd bytes :: _ => .ok ([], bytes)
  | .fault reason bytes :: rest =>
      if isHalfSurrogate (.fault reason bytes :: rest) then
        .ok ([], bytes ++ rest.flatMap Piece.bytes)
      else .error ⟨reason, bytes, position⟩

/-- The first fault of the bytes carried over to the end of a file. -/
def heldFault? (held : List UInt8) : Option Fault :=
  match pieces held with
  | .fault reason bytes :: _ => some ⟨reason, bytes, 0⟩
  | _ => none

/-- The characters of pieces, or the first fault among them. -/
def wholePieces (position : Nat) : List Piece → Except Fault (List Char)
  | [] => .ok []
  | .scalar c width :: rest => (wholePieces (position + width) rest).map (c :: ·)
  | .fault reason bytes :: _ => .error ⟨reason, bytes, position⟩

/-- The characters of a byte string that is decoded at once. -/
def decodeWhole (bytes : List UInt8) : Except Fault (List Char) := wholePieces 0 (pieces bytes)

/-! ## The report of a fault -/

/-- The two hexadecimal digits of a byte. -/
def hexByte (b : UInt8) : String :=
  String.ofList [Nat.digitChar (b.toNat / 16), Nat.digitChar (b.toNat % 16)]

/-- The words for a reason. -/
def Reason.message : Reason → String
  | .invalidStart => "invalid start byte"
  | .invalidContinuation => "invalid continuation byte"
  | .unexpectedEnd => "unexpected end of data"

/-- The report of a fault: the byte if it is one, and the range of positions. -/
def Fault.message (f : Fault) : String :=
  let place :=
    match f.bytes with
    | [b] => "byte 0x" ++ hexByte b ++ " in position " ++ toString f.position
    | bytes =>
        "bytes in position " ++ toString f.position ++ "-" ++
          toString (f.position + bytes.length - 1)
  "'utf-8' codec can't decode " ++ place ++ ": " ++ f.reason.message

/-! ## Tests -/

example : decodeLossy [0x61, 0xF0, 0x9F, 0x92] = ['a', '\ufffd'] := by decide
example : decodeLossy [0xC0, 0x80] = ['\ufffd', '\ufffd'] := by decide
example : decodeLossy [0xE2, 0x82, 0xAC] = ['€'] := by decide
example : (decodeWhole [0x61, 0xED, 0xA0, 0x80]).toOption = none := by decide

end Bindery.Text.Utf8
