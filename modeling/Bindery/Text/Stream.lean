import Bindery.Text.Utf8

/-!
# Files as texts

A text read from a file or from a child has one kind of line end.  A carriage
return, alone or before a newline, is a newline.

A file is read strictly.  `Stream.read` gives its characters, with newlines for
all line ends, up to the first bytes that are none.

The bytes are decoded in chunks.  A character that spans two chunks is carried
over, and the position in a fault counts from the first byte that the decoder
then holds.  So a character cut off by the end of the file is always at position
0.  A carriage return at the end of a chunk waits for the next one, as a newline
may follow.

Characters are asked for in blocks of `blockSize`.  A chunk is as large as the
block at hand will need if its characters take as many bytes as those of the
chunk before, and never smaller than `leastChunk`.
-/

namespace Bindery.Text

/-! ## Line ends -/

/-- A text whose line ends are all newlines. -/
def newlines : List Char → List Char
  | [] => []
  | '\r' :: '\n' :: cs => '\n' :: newlines cs
  | '\r' :: cs => '\n' :: newlines cs
  | c :: cs => c :: newlines cs

/-! ## Streams -/

/-- The part of a file that is not read yet, with what was carried over. -/
structure Stream where
  /-- The bytes that are not decoded yet. -/
  bytes : List UInt8
  /-- The bytes of a character that is not complete. -/
  held : List UInt8 := []
  /-- A carriage return that waits for what follows, or nothing. -/
  waiting : List Char := []
  /-- The number of characters read. -/
  count : Nat := 0
  /-- The bytes for a character in the last chunk, or 0. -/
  ratio : Float := 0.0

namespace Stream

/-- The number of characters that are asked for at a time. -/
def blockSize : Nat := 4096

/-- The least number of bytes in a chunk. -/
def leastChunk : Nat := 8192

/-- The number of bytes in the next chunk. -/
def chunkSize (s : Stream) : Nat :=
  let wanted := Float.ofNat (blockSize - s.count % blockSize)
  let bytes := (if s.ratio < 1.0 then 1.0 else s.ratio) * wanted
  max leastChunk bytes.toUInt64.toNat

/-- The characters without a carriage return at their end, and the carriage return. -/
def splitReturn (cs : List Char) : List Char × List Char :=
  if cs.getLast? == some '\r' then (cs.dropLast, ['\r']) else (cs, [])

/-- The stream behind a chunk of so many bytes that reads as a text. -/
def behind (s : Stream) (size : Nat) (text : List Char) (held : List UInt8)
    (waiting : List Char) : Stream where
  bytes := s.bytes.drop size
  held := held
  waiting := waiting
  count := s.count + text.length
  ratio :=
    if text.isEmpty then 0.0
    else Float.ofNat (s.bytes.take size).length / Float.ofNat text.length

/-- The characters of a stream up to the first fault, and the fault if there is one. -/
def readAll : (fuel : Nat) → Stream → List Char × Option Utf8.Fault
  | 0, _ => ([], none)
  | fuel + 1, s =>
      if s.bytes.isEmpty then
        match Utf8.heldFault? s.held with
        | some fault => ([], some fault)
        | none => (newlines s.waiting, none)
      else
        let size := s.chunkSize
        match Utf8.readPieces 0 (Utf8.pieces (s.held ++ s.bytes.take size)) with
        | .error fault => ([], some fault)
        | .ok (cs, held) =>
            let (complete, waiting) := splitReturn (s.waiting ++ cs)
            let text := newlines complete
            let (rest, fault) := readAll fuel (s.behind size text held waiting)
            (text ++ rest, fault)

/-- The characters of a file, or those of the chunks before its first fault. -/
def read (bytes : List UInt8) : List Char × Option Utf8.Fault :=
  readAll (bytes.length + 1) { bytes }

/-! ## Tests -/

example : read [0x61, 0x0D, 0x0A, 0x0D] = (['a', '\n', '\n'], none) := by decide +kernel
example : (read [0x61, 0xE2, 0x82]).2 = some ⟨.unexpectedEnd, [0xE2, 0x82], 0⟩ := by decide +kernel
example : (read [0x61, 0xED, 0xA0]).2 = some ⟨.invalidContinuation, [0xED], 0⟩ := by decide +kernel
example : (read [0x61, 0xED, 0xA0, 0x80]).2 = some ⟨.invalidContinuation, [0xED], 1⟩ := by
  decide +kernel
example : ({ bytes := [], count := 4095, ratio := 2.5 } : Stream).chunkSize = 8192 := by
  decide +kernel
example : ({ bytes := [], count := 8192, ratio := 2.5 } : Stream).chunkSize = 10240 := by
  decide +kernel

end Stream
end Bindery.Text
