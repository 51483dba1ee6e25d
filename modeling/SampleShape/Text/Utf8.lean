/-
# UTF-8

A declaration is stored as the UTF-8 encoding of its text, and a sample file is
read back as text.  Both directions are strict:

  * encoding fails at the first surrogate half, and reports the whole run of
    halves that starts there;
  * decoding fails at the first byte that begins no well-formed sequence.  The
    report covers the part of the sequence that was still plausible: a byte that
    no sequence starts with is an invalid start byte, a byte that cannot stand
    where it does in a sequence is an invalid continuation byte, and bytes that
    run out within a sequence are an unexpected end of data.

A lead byte fixes both the length of its sequence and the range of the second
byte; every later byte is in the range 0x80 to 0xBF.

The names of files are bytes that need not be UTF-8.  As text, a byte from 0x80
on that belongs to no well-formed sequence is the surrogate half 0xDC00 above
it.  Encoding a name turns such a half back into its byte; the other halves have
no encoding here either.
-/

import SampleShape.Text.Quoted

namespace SampleShape
namespace Utf8

/-- Why a text has no encoding: the surrogate halves from `first` on, `count`
of them, counted in code points. -/
structure EncodeFault where
  first : Nat
  count : Nat
  half : CodePoint

namespace EncodeFault

/-- The wording of an encoding failure. -/
def message (f : EncodeFault) : Text :=
  if f.count = 1 then
    .concat ["'utf-8' codec can't encode character '", Text.escapeNumeric f.half, "' in position ",
      .ofNat f.first, ": surrogates not allowed"]
  else
    .concat ["'utf-8' codec can't encode characters in position ", .ofNat f.first, "-",
      .ofNat (f.first + f.count - 1), ": surrogates not allowed"]

end EncodeFault

/-- The bytes of one code point, in the generalised form that also covers
surrogate halves. -/
def encodeCodePoint (c : CodePoint) : List UInt8 :=
  let v := c.val
  let tail (shift : Nat) : UInt8 := .ofNat (0x80 + (v >>> shift) % 0x40)
  if v < 0x80 then [.ofNat v]
  else if v < 0x800 then [.ofNat (0xC0 + (v >>> 6)), tail 0]
  else if v < 0x10000 then [.ofNat (0xE0 + (v >>> 12)), tail 6, tail 0]
  else [.ofNat (0xF0 + (v >>> 18)), tail 12, tail 6, tail 0]

/-- The first code point of a text that has no encoding, and the run of surrogate
halves from there on. -/
def faultOf? (unencodable : CodePoint → Bool) (t : Text) : Option EncodeFault :=
  match t.dropWhile (!unencodable ·) with
  | [] => none
  | half :: rest =>
    some ⟨(t.takeWhile (!unencodable ·)).length, 1 + (rest.takeWhile (·.isSurrogate)).length, half⟩

/-- The encoding of a text. -/
def encode (t : Text) : Except EncodeFault (List UInt8) :=
  match faultOf? (·.isSurrogate) t with
  | some fault => .error fault
  | none => .ok (t.flatMap encodeCodePoint)

/-! ### Names of files -/

/-- Whether a code point stands for a byte that is no UTF-8. -/
def isRawByte (c : CodePoint) : Bool := 0xDC80 ≤ c.val && c.val ≤ 0xDCFF

/-- The bytes of one code point of a name. -/
def encodeNamePoint (c : CodePoint) : List UInt8 :=
  if isRawByte c then [.ofNat (c.val - 0xDC00)] else encodeCodePoint c

/-- The bytes of a name. -/
def nameBytes (t : Text) : List UInt8 := t.flatMap encodeNamePoint

/-- Why a text cannot name a file, if it cannot. -/
def nameFault? (t : Text) : Option EncodeFault :=
  faultOf? (fun c => c.isSurrogate && !isRawByte c) t

/-! ### Decoding -/

/-- What is wrong with a byte or the lack of one. -/
inductive DecodeCause where
  | invalidStart
  | invalidContinuation
  | unexpectedEnd

/-- Why bytes have no decoding: `count` bytes from position `first` on, of
which `byte` is the first. -/
structure DecodeFault where
  cause : DecodeCause
  first : Nat
  count : Nat
  byte : UInt8

namespace DecodeFault

/-- The wording of a cause. -/
def reason : DecodeCause → Text
  | .invalidStart => "invalid start byte"
  | .invalidContinuation => "invalid continuation byte"
  | .unexpectedEnd => "unexpected end of data"

/-- The wording of a decoding failure. -/
def message (f : DecodeFault) : Text :=
  if f.count = 1 then
    .concat ["'utf-8' codec can't decode byte 0x", .hex 2 f.byte.toNat, " in position ",
      .ofNat f.first, ": ", reason f.cause]
  else
    .concat ["'utf-8' codec can't decode bytes in position ", .ofNat f.first, "-",
      .ofNat (f.first + f.count - 1), ": ", reason f.cause]

end DecodeFault

/-- What a lead byte announces: the bits it contributes, and the ranges of the
bytes that follow it. -/
structure Lead where
  bits : Nat
  ranges : List (Nat × Nat)

/-- The range of an ordinary continuation byte. -/
def continuation : Nat × Nat := (0x80, 0xBF)

/-- What a byte announces as the lead of a sequence, if it can be one. -/
def lead? (byte : UInt8) : Option Lead :=
  let b := byte.toNat
  if b < 0x80 then some ⟨b, []⟩
  else if b < 0xC2 then none
  else if b < 0xE0 then some ⟨b - 0xC0, [continuation]⟩
  else if b = 0xE0 then some ⟨0, [(0xA0, 0xBF), continuation]⟩
  else if b = 0xED then some ⟨0xD, [(0x80, 0x9F), continuation]⟩
  else if b < 0xF0 then some ⟨b - 0xE0, [continuation, continuation]⟩
  else if b = 0xF0 then some ⟨0, [(0x90, 0xBF), continuation, continuation]⟩
  else if b < 0xF4 then some ⟨b - 0xF0, [continuation, continuation, continuation]⟩
  else if b = 0xF4 then some ⟨4, [(0x80, 0x8F), continuation, continuation]⟩
  else none

/-- A sequence under way: the bits so far, the ranges still to be met, where the
sequence began, how many bytes it has, and its first byte. -/
structure Pending where
  bits : Nat
  ranges : List (Nat × Nat)
  first : Nat
  count : Nat
  byte : UInt8

/-- Decoding from a position on, with a sequence under way or not. -/
def decodeFrom (position : Nat) : Option Pending → List UInt8 → Except DecodeFault Text
  | none, [] => .ok []
  | some p, [] => .error ⟨.unexpectedEnd, p.first, p.count, p.byte⟩
  | none, byte :: rest =>
    match lead? byte with
    | none => .error ⟨.invalidStart, position, 1, byte⟩
    | some ⟨bits, []⟩ => do
      let t ← decodeFrom (position + 1) none rest
      return .ofNat bits :: t
    | some ⟨bits, ranges⟩ => decodeFrom (position + 1) (some ⟨bits, ranges, position, 1, byte⟩) rest
  | some p, byte :: rest =>
    let bits := p.bits * 0x40 + byte.toNat % 0x40
    match p.ranges with
    | [] => .error ⟨.invalidStart, position, 1, byte⟩
    | (low, high) :: ranges =>
      if low ≤ byte.toNat ∧ byte.toNat ≤ high then
        if ranges.isEmpty then do
          let t ← decodeFrom (position + 1) none rest
          return .ofNat bits :: t
        else decodeFrom (position + 1) (some { p with bits, ranges, count := p.count + 1 }) rest
      else .error ⟨.invalidContinuation, p.first, p.count, p.byte⟩

/-- The text that bytes encode. -/
def decode (bytes : List UInt8) : Except DecodeFault Text := decodeFrom 0 none bytes

/-- Whether two bytes are the beginning of an encoded surrogate half. -/
def isHalfStart (a b : UInt8) : Bool := a == 0xED && 0xA0 ≤ b && b ≤ 0xBF

/-- Whether a fault shows only once nothing more comes: a sequence that is cut
short, or one that would have become a surrogate half. -/
def DecodeFault.isAtEnd (f : DecodeFault) (bytes : List UInt8) : Bool :=
  match f.cause with
  | .unexpectedEnd => true
  | .invalidStart => false
  | .invalidContinuation =>
    match bytes.drop f.first with
    | [a, b] => isHalfStart a b
    | _ => false

/-- The text that bytes encode, when more bytes may follow, and the bytes at the
end that belong to a sequence under way. -/
def decodePiece (bytes : List UInt8) : Except DecodeFault (Text × List UInt8) :=
  match decode bytes with
  | .ok t => .ok (t, [])
  | .error f =>
    if f.isAtEnd bytes then (decode (bytes.take f.first)).map (·, bytes.drop f.first)
    else .error f

/-- The bits of a sequence whose remaining bytes have the given ranges, if they
are at the front. -/
def follow? (bits : Nat) : List (Nat × Nat) → List UInt8 → Option Nat
  | [], _ => some bits
  | _ :: _, [] => none
  | (low, high) :: ranges, byte :: rest =>
    if low ≤ byte.toNat ∧ byte.toNat ≤ high then
      follow? (bits * 0x40 + byte.toNat % 0x40) ranges rest
    else none

/-- The name that bytes spell, after `skip` bytes that belong to an earlier
sequence. -/
def nameFrom : Nat → List UInt8 → Text
  | _, [] => []
  | skip + 1, _ :: rest => nameFrom skip rest
  | 0, byte :: rest =>
    match lead? byte with
    | none => .ofNat (0xDC00 + byte.toNat) :: nameFrom 0 rest
    | some ⟨bits, ranges⟩ =>
      match follow? bits ranges rest with
      | none => .ofNat (0xDC00 + byte.toNat) :: nameFrom 0 rest
      | some bits => .ofNat bits :: nameFrom ranges.length rest

/-- The name that bytes spell. -/
def nameText (bytes : List UInt8) : Text := nameFrom 0 bytes

end Utf8
end SampleShape
