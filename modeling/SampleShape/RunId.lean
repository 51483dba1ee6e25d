/-
# Run identifiers

A run that is given no identifier of its own gets a random one: 128 bits, written
as five groups of hexadecimal digits, of which six bits are fixed and mark the
identifier as random.
-/

import SampleShape.Value

namespace SampleShape
namespace RunId

/-- The identifier made of a random number below `2 ^ 128`. -/
def ofRandom (n : Nat) : Text :=
  let group (shift width : Nat) : Nat := (n >>> shift) % (1 <<< (4 * width))
  .join "-"
    [.hex 8 (group 96 8), .hex 4 (group 80 4), .hex 4 (0x4000 + group 64 3),
     .hex 4 (0x8000 + (n >>> 48) % 0x4000), .hex 12 (group 0 12)]

/-- The identifier that a caller gives, or a fresh one where none is given. -/
def ofValue (fresh : Text) : Value → Except Unwritable Text
  | .null => .ok fresh
  | .text t => .ok t
  | v => v.literal

end RunId
end SampleShape
