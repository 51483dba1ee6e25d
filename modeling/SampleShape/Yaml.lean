/-
# Configurations in YAML

Configurations can be written in a part of YAML: blocks of mappings and sequences,
which indentation tells apart, and scalars, plain or in quotes.  Collections in
brackets, scalars in blocks of their own, anchors, tags and directives are not
supported.

This is a reader for the program; commands work with any reader of YAML.

Reading goes from bytes over tokens and nodes to a value.  The faults of each step
come in the order in which the document is looked at; that a word is no number or
no date it is spelt like comes last, when the whole document is known.
-/

import SampleShape.Yaml.Scan
import SampleShape.Yaml.Node.Value

namespace SampleShape
namespace Yaml

/-- The value of a file; one without a document is null. -/
def read (bytes : List UInt8) : Except Fault Value := do
  let tokens := (Source.ofBytes bytes).tokens
  match ← tokens.document with
  | none => return .null
  | some root => root.value (tokens.size + 1)

/-- The reader for the program: reports name the path. -/
def reader (path : Text) (bytes : List UInt8) : Except ForeignFault Value :=
  (read bytes).mapError fun f => ⟨f.kind, f.message path⟩

end Yaml
end SampleShape
