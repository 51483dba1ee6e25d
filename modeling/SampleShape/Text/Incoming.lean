/-
# Text that is coming in

A file that is looked at while it is still being read comes in by pieces.  A piece
of bytes is decoded on its own, together with the sequence that the piece before it
left under way, so a fault is placed from the beginning of that sequence, and a
sequence that stays unfinished is a fault only once nothing more comes.

The text is handed out in portions of 4096 code points, with every line break as a
line feed.  A piece has 8192 bytes, or more if the piece before it tells that a
portion needs more.
-/

import SampleShape.Text.Utf8

namespace SampleShape

/-- A file part of which has come in. -/
structure Incoming where
  /-- What has not come in yet. -/
  bytes : List UInt8
  /-- The bytes of a sequence under way. -/
  tail : List UInt8
  /-- Whether a carriage return is held back, since a line feed may follow. -/
  afterReturn : Bool
  /-- What has been decoded and not been handed out. -/
  ready : Text
  /-- The bytes and the code points of the last piece. -/
  last : Nat × Nat
  /-- Whether the end was found. -/
  ended : Bool

namespace Incoming

/-- The code points of a portion. -/
def portionSize : Nat := 4096

/-- The least size of a piece. -/
def pieceSize : Nat := 8192

/-- A file none of which has come in. -/
def ofBytes (bytes : List UInt8) : Incoming := ⟨bytes, [], false, [], (0, 0), false⟩

/-- The bytes that a number of code points needs if they are like those of the last
piece. -/
def bytesFor (codePoints : Nat) (s : Incoming) : Nat :=
  if s.last.2 = 0 then codePoints else max codePoints (codePoints * s.last.1 / s.last.2)

/-- Decodes the bytes at hand; a carriage return at the end is held back unless
nothing more comes. -/
def decodeNext (piece : List UInt8) (s : Incoming) :
    Except Utf8.DecodeFault (Text × List UInt8 × Bool) := do
  let (t, tail) ←
    if piece.isEmpty then (Utf8.decode s.tail).map (·, []) else Utf8.decodePiece (s.tail ++ piece)
  let t := if s.afterReturn then .ofChar '\r' :: t else t
  let held := !piece.isEmpty && t.getLast?.any (·.is '\r')
  return (Text.unifyLineBreaks false (if held then t.dropLast else t), tail, held)

/-- Takes in a piece, when a number of code points is still wanted.  An empty piece
is the end. -/
def takePiece (wanted : Nat) (s : Incoming) : Except Utf8.DecodeFault Incoming := do
  let size := max pieceSize (s.bytesFor wanted)
  let piece := s.bytes.take size
  let (t, tail, afterReturn) ← s.decodeNext piece
  return { bytes := s.bytes.drop size, tail, afterReturn, ready := s.ready ++ t,
           last := (piece.length, t.length), ended := piece.isEmpty }

/-- Takes in pieces, at most as many as the first argument, until a portion is ready
or the end is found. -/
def fill : Nat → Incoming → Except Utf8.DecodeFault Incoming
  | 0, s => .ok s
  | n + 1, s =>
    if s.ended || portionSize ≤ s.ready.length then .ok s
    else do fill n (← s.takePiece (portionSize - s.ready.length))

/-- The portions, at most as many as the first argument, and the fault that comes
after them. -/
def portionsFrom : Nat → Incoming → List Text × Option Utf8.DecodeFault
  | 0, _ => ([], none)
  | n + 1, s =>
    match s.fill (s.bytes.length + 2) with
    | .error f => ([], some f)
    | .ok s =>
      if s.ready.isEmpty then ([], none)
      else
        let (later, f) := portionsFrom n { s with ready := s.ready.drop portionSize }
        (s.ready.take portionSize :: later, f)

/-- The portions of a file and the fault that comes after them. -/
def portions (bytes : List UInt8) : List Text × Option Utf8.DecodeFault :=
  portionsFrom (bytes.length + 1) (ofBytes bytes)

end Incoming
end SampleShape
