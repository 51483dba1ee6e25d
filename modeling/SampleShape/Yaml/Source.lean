/-
# The source of a document

A document is looked at while its file is coming in.  Two portions of the file are
there before anything is looked at, and each further portion comes when it is
needed.  Whatever comes is first searched for code points that no document may
hold: control characters other than tabs and line breaks, surrogate halves, and
the last two code points of the first plane.

A fault in a portion is found when the portion comes, so what was there before is
looked at first.
-/

import SampleShape.Yaml.Fault
import SampleShape.Text.Incoming

namespace SampleShape
namespace Yaml

/-- Whether a document may hold a code point. -/
def isAcceptable (c : CodePoint) : Bool :=
  c.is '\t' || c.is '\n' || c.is '\r' || (0x20 ≤ c.val && c.val ≤ 0x7E) || c.val == 0x85 ||
    (0xA0 ≤ c.val && c.val ≤ 0xD7FF) || (0xE000 ≤ c.val && c.val ≤ 0xFFFD) || 0x10000 ≤ c.val

/-- The first code point of a text that a document may not hold; the text starts at
a position. -/
def unacceptable? (position : Nat) (t : Text) : Option Fault :=
  match t.dropWhile isAcceptable with
  | [] => none
  | c :: _ => some (.unprintable c (position + (t.takeWhile isAcceptable).length))

/-- The text of a document as far as it can be looked at, and the fault that lies
behind it. -/
structure Source where
  readable : Text
  fault : Option Fault

namespace Source

/-- The source whose text comes in the given parts, the first of them at a
position. -/
def ofParts (position : Nat) (fault : Option Fault) : List Text → Source
  | [] => ⟨[], fault⟩
  | part :: rest =>
    match unacceptable? position part with
    | some found => ⟨[], some found⟩
    | none =>
      let later := ofParts (position + part.length) fault rest
      ⟨part ++ later.readable, later.fault⟩

/-- The source that a file is. -/
def ofBytes (bytes : List UInt8) : Source :=
  match Incoming.portions bytes with
  | (first :: second :: rest, fault) =>
    ofParts 0 (fault.map .undecodable) ((first ++ second) :: rest)
  | (_, some fault) => ⟨[], some (.undecodable fault)⟩
  | (portions, none) => ofParts 0 none portions

end Source
end Yaml
end SampleShape
