/-
# Joining shapes

The join of shapes follows the rules of `Joinery`, and nothing can go wrong in it: a field
that both sides share is found on the right, and every shape is put together as its parts
are.
-/

import SampleShape.Shape.Joinery

namespace SampleShape
namespace Shape

/-- What the join of shapes needs to know; nothing can go wrong. -/
abbrev plainJoinery : Joinery Id Shape Shape := joinery (fun _ s => pure s) pure

/-- The fields of both sides; `j` joins the shapes of shared ones. -/
def joinFields (j : Shape → Shape → Shape) (fs gs : List (Text × Shape)) : List (Text × Shape) :=
  (plainJoinery.joinFields (fun s t => pure (j s t)) fs gs).run

/-- The shapes joined into one from left to right, if there are any. -/
def joinRow (j : Shape → Shape → Shape) (row : List Shape) : List Shape :=
  (Joinery.joinRow (m := Id) (fun s t => pure (j s t)) row).run

/-- The items of both sides; `j` joins those that are folded into one. -/
def joinItems (j : Shape → Shape → Shape) (xs ys : List Shape) : List Shape :=
  (plainJoinery.joinItems (fun s t => pure (j s t)) xs ys).run

/-- A content that both sides have is joined by `f`, one that only one side has
is kept. -/
def joinContent {α : Type} (f : α → α → α) (x? y? : Option α) : Option α :=
  (Joinery.joinContent (m := Id) (fun x y => pure (f x y)) x? y?).run

/-- The join of two shapes; `j` joins their contents. -/
def joinWith (j : Shape → Shape → Shape) (a b : Shape) : Shape :=
  (plainJoinery.joinWith (fun s t => pure (j s t)) a b).run

/-- The join of two shapes of depth less than the first argument. -/
def joinAt (n : Nat) (a b : Shape) : Shape := (plainJoinery.joinAt n a b).run

/-- The join of two shapes. -/
def join (a b : Shape) : Shape := (plainJoinery.join a b).run

/-- The join of shapes from left to right, of which `s` is the first. -/
def joinAll (s : Shape) (rest : List Shape) : Shape := (plainJoinery.joinAll s rest).run

/-! ### Pooled items -/

/-- The pooled items of both sides that hold information. -/
def pool (xs ys : List Shape) : List Shape := (dedupe (xs ++ ys)).filter fun s => !s.isPlaceholder

/-- The pooled items that have fields. -/
def pooledObjects (xs ys : List Shape) : List Shape := (pool xs ys).filter fun s => s.isObject

/-- The pooled items that are arrays and have no fields. -/
def pooledArrays (xs ys : List Shape) : List Shape :=
  (pool xs ys).filter fun s => s.isArray && !s.isObject

/-- The pooled items that are no containers. -/
def pooledLeaves (xs ys : List Shape) : List Shape :=
  (pool xs ys).filter fun s => !s.isObject && !s.isArray

end Shape
end SampleShape
