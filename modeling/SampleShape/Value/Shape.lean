/-
# The shape of a value

Each sample has a shape of its own.  A sequence is an array of the shapes of its
items, each shape once; a mapping is an object with a field per key.  An empty
container says nothing about its content and holds the placeholder.

A value of another kind, or a key that is not text, has no shape.  The refusal
names the first such value on the way through the sample and its path: `[i]` for
an item, `.k` for a key.  It is put into words by writing the value out, and that
can fail.
-/

import SampleShape.Value
import SampleShape.Shape.Equiv

namespace SampleShape

/-- A value that has no shape, and its path. -/
structure Unsupported where
  value : Value
  path : Text

namespace Unsupported

/-- The wording of the refusal, which shows the value. -/
def message (u : Unsupported) : Except Unwritable Text := do
  let written ← u.value.literal
  return .concat ["Unable to interpret type of ", written, " (", u.value.kindWord, ") at ", u.path]

end Unsupported

namespace Value

/-- The path of the item with a given number. -/
def itemPath (path : Text) (index : Nat) : Text := .concat [path, "[", .ofNat index, "]"]

/-- The path of the value under a key. -/
def keyPath (path key : Text) : Text := .concat [path, ".", key]

/-- The leaf kind of a value that holds no others. -/
def leaf? : Value → Option Leaf
  | .undefined => some .undefined
  | .null => some .null
  | .boolean _ => some .boolean
  | .integer _ => some .number
  | .real _ => some .number
  | .text _ => some .string
  | _ => none

/-- The array shape of the given item shapes. -/
def arrayOf (items : List Shape) : Shape :=
  .array (if items.isEmpty then [.unknown] else Shape.dedupe items)

/-- The object shape of the given fields. -/
def objectOf (fields : List (Text × Shape)) : Shape :=
  .object (if fields.isEmpty then [(Shape.anyKey, .unknown)] else fields)

section

variable {ε : Type} (check : Shape → Except ε Shape) (refuse : Unsupported → ε)

mutual

/-- The shape of a value found at a path.  Every shape that is put together goes through
`check`, and `refuse` says what a refusal fails with. -/
def shapeBy (path : Text) : Value → Except ε Shape
  | .sequence _ items => do check (arrayOf (← itemShapesBy path 0 items))
  | .mapping entries => do check (objectOf (← entryShapesBy path entries))
  | v => match v.leaf? with
    | some l => check (.leaf l)
    | none => .error (refuse ⟨v, path⟩)
termination_by structural v => v

/-- The shapes of items, numbered from `index`. -/
def itemShapesBy (path : Text) (index : Nat) : List Value → Except ε (List Shape)
  | [] => .ok []
  | v :: rest => do
    let s ← shapeBy (itemPath path index) v
    let ss ← itemShapesBy path (index + 1) rest
    return s :: ss
termination_by structural vs => vs

/-- The fields of a mapping; a key is looked at just before its value. -/
def entryShapesBy (path : Text) : List (Value × Value) → Except ε (List (Text × Shape))
  | [] => .ok []
  | (.text key, v) :: rest => do
    let s ← shapeBy (keyPath path key) v
    let fields ← entryShapesBy path rest
    return (key, s) :: fields
  | (key, _) :: _ => .error (refuse ⟨key, .concat [path, " (mapping key)"]⟩)
termination_by structural es => es

end

end

/-- The shape of a value found at a path. -/
def shape (path : Text) (v : Value) : Except Unsupported Shape :=
  shapeBy .ok id path v

/-- The shapes of items, numbered from `index`. -/
def itemShapes (path : Text) (index : Nat) (items : List Value) :
    Except Unsupported (List Shape) :=
  itemShapesBy .ok id path index items

/-- The fields of a mapping. -/
def entryShapes (path : Text) (entries : List (Value × Value)) :
    Except Unsupported (List (Text × Shape)) :=
  entryShapesBy .ok id path entries

theorem shape_sequence (path : Text) (fixed : Bool) (items : List Value) :
    shape path (.sequence fixed items) = do return arrayOf (← itemShapes path 0 items) := by
  rw [shape, shapeBy]
  rfl

theorem shape_mapping (path : Text) (entries : List (Value × Value)) :
    shape path (.mapping entries) = do return objectOf (← entryShapes path entries) := by
  rw [shape, shapeBy]
  rfl

theorem itemShapes_cons (path : Text) (index : Nat) (v : Value) (rest : List Value) :
    itemShapes path index (v :: rest) = (do
      let s ← v.shape (itemPath path index)
      let ss ← itemShapes path (index + 1) rest
      return s :: ss) := by
  rw [itemShapes, itemShapesBy]
  rfl

theorem entryShapes_cons (path key : Text) (v : Value) (rest : List (Value × Value)) :
    entryShapes path ((.text key, v) :: rest) = (do
      let s ← v.shape (keyPath path key)
      let fields ← entryShapes path rest
      return (key, s) :: fields) := by
  rw [entryShapes, entryShapesBy]
  rfl

end Value
end SampleShape
