/-
# Normal form

A place where only null was observed, or which was never filled, says as little
as a place that was not observed at all.  The normal form of a shape puts the
placeholder there, at every depth.  Containers are kept; items that become
equivalent are kept once.
-/

import SampleShape.Shape.Equiv

namespace SampleShape
namespace Shape

/-- Whether null, or absence, is all that was observed. -/
def isDegenerate : Shape → Bool
  | ⟨[.null], none, none⟩ => true
  | ⟨[.undefined], none, none⟩ => true
  | _ => false

section

variable {m : Type → Type} [Monad m] (check : Shape → m Shape)

mutual

/-- The normal form, where every shape that is put together goes through `check`. -/
def normalizeBy : Shape → m Shape
  | ⟨leaves, fields, items⟩ =>
    if isDegenerate ⟨leaves, fields, items⟩ then pure unknown
    else do
      let fields ← match fields with
        | none => pure none
        | some fields => some <$> normalizeFieldsBy fields
      let items ← match items with
        | none => pure none
        | some items => (some ∘ dedupe) <$> normalizeItemsBy items
      check ⟨leaves, fields, items⟩
termination_by structural s => s

/-- The normal forms of fields. -/
def normalizeFieldsBy : List (Text × Shape) → m (List (Text × Shape))
  | [] => pure []
  | (name, s) :: rest => do
    let s ← normalizeBy s
    let rest ← normalizeFieldsBy rest
    return (name, s) :: rest
termination_by structural fields => fields

/-- The normal forms of items. -/
def normalizeItemsBy : List Shape → m (List Shape)
  | [] => pure []
  | s :: rest => do
    let s ← normalizeBy s
    let rest ← normalizeItemsBy rest
    return s :: rest
termination_by structural items => items

end

end

/-- The normal form. -/
def normalize (s : Shape) : Shape := (normalizeBy (m := Id) pure s).run

end Shape
end SampleShape
