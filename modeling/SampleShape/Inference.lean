/-
# Inference

The shape of a list of samples: each sample has its own shape, these are joined
from left to right, and the result is put in normal form.  Inference fails on an
empty list and on a sample that has no shape.  A value that has no shape is reported,
unless it cannot be written; then that is the failure.  Nothing else can go wrong.
-/

import SampleShape.Value.Shape
import SampleShape.Shape.Join
import SampleShape.Shape.Normalize
import SampleShape.Shape.Render

namespace SampleShape

/-- Why inference fails. -/
inductive InferenceFault where
  | noSamples
  | unsupported (u : Unsupported) (wording : Text)
  | unwritable (f : Unwritable)

namespace InferenceFault

/-- The failure that comes of a refusal: its report, or why there is none. -/
def ofUnsupported (u : Unsupported) : InferenceFault :=
  match u.message with
  | .ok wording => .unsupported u wording
  | .error f => .unwritable f

/-- The wording of a failure. -/
def message : InferenceFault → Text
  | .noSamples => "At least one sample is required to infer a type"
  | .unsupported _ wording => wording
  | .unwritable f => f.message

end InferenceFault

namespace Shape

/-- The path of a list of samples. -/
def samplesPath : Text := "$"

/-- The join of the samples' own shapes. -/
def observed (samples : List Value) : Except InferenceFault Shape := do
  match ← (Value.itemShapes samplesPath 0 samples).mapError .ofUnsupported with
  | [] => .error .noSamples
  | s :: rest => .ok (joinAll s rest)

/-- The shape that describes every sample. -/
def infer (samples : List Value) : Except InferenceFault Shape := do
  let s ← observed samples
  return s.normalize

/-- The declaration that describes every sample. -/
def inferDeclaration (style : Style) (samples : List Value) : Except InferenceFault Text := do
  let s ← infer samples
  return s.declaration style

end Shape
end SampleShape
