/-
# Sketches

A sketch is a shape that is put together by hand.  Unlike a shape, it may have
gaps: fields that are recorded without a shape.  A gap is harmless as long as
nothing looks into it; it can be carried along and described, but it cannot be
compared, joined, normalized or rendered.

A sketch without gaps is a shape and behaves as one.  The parts of a sketch that
do have gaps are numbered when the sketch is recorded, so that a part that is
used twice is known to be one and the same part.  That matters for gaps alone:
a part is always equivalent to itself, even where comparing it piece by piece
would meet a gap.
-/

import SampleShape.Shape.Normalize

namespace SampleShape

/-- A shape, or a place with a gap somewhere below it. -/
inductive Sketch where
  | whole (s : Shape)
  | gapped (number : Option Nat) (leaves : List Leaf)
      (fields : Option (List (Text × Option Sketch))) (items : Option (List Sketch))

/-- What an operation wanted of a field that has no shape.  A name that both sides
of a join share must have a shape on the right. -/
inductive Gap where
  | kinds
  | markers
  | isOptional
  | sharedField (name : Text)

namespace Gap

/-- The wording of a failure at a gap. -/
def message : Gap → Text
  | .kinds => "'NoneType' object has no attribute 'kinds'"
  | .markers => "'NoneType' object has no attribute 'markers'"
  | .isOptional => "'NoneType' object has no attribute 'is_optional'"
  | .sharedField name =>
    .concat ["Shared property ", name.quoted, " missing from right-hand object during merge"]

end Gap

namespace Sketch

/-! ### Views -/

/-- The leaf kinds. -/
def leaves : Sketch → List Leaf
  | .whole s => s.leaves
  | .gapped _ leaves _ _ => leaves

/-- The fields, a gap where there is no shape. -/
def fields : Sketch → Option (List (Text × Option Sketch))
  | .whole s => s.fields.map fun fields => fields.map fun f => (f.1, some (.whole f.2))
  | .gapped _ _ fields _ => fields

/-- The items. -/
def items : Sketch → Option (List Sketch)
  | .whole s => s.items.map fun items => items.map .whole
  | .gapped _ _ _ items => items

/-- The shape of a sketch without gaps. -/
def shape? : Sketch → Option Shape
  | .whole s => some s
  | .gapped .. => none

/-- The shape of a sketch, for an operation that looks into every field. -/
def shape (gap : Gap) (k : Sketch) : Except Gap Shape :=
  match k.shape? with
  | some s => .ok s
  | none => .error gap

/-- Whether objects were observed. -/
def isObject (k : Sketch) : Bool := k.fields.isSome

/-- Whether arrays were observed. -/
def isArray (k : Sketch) : Bool := k.items.isSome

/-- Whether the place may be unfilled. -/
def isOptional (k : Sketch) : Bool := decide (Leaf.undefined ∈ k.leaves)

/-- Whether the sketch is the bare placeholder. -/
def isPlaceholder (k : Sketch) : Bool := k.shape?.any Shape.isPlaceholder

/-- The kinds, leaves first. -/
def kinds (k : Sketch) : List Kind := Kind.all k.leaves k.isObject k.isArray

/-- Whether two sketches have the same set of kinds. -/
def sameKinds (a b : Sketch) : Bool := Kind.sameSet a.kinds b.kinds

/-- Whether two sketches are known to be one and the same part. -/
def isSame : Sketch → Sketch → Bool
  | .gapped (some m) .., .gapped (some n) .. => m == n
  | _, _ => false

/-! ### Making sketches -/

/-- The fields as those of a shape, if they have no gaps. -/
def wholeFields? (fields : List (Text × Option Sketch)) : Option (List (Text × Shape)) :=
  fields.mapM fun f => do return (f.1, ← (← f.2).shape?)

/-- The sketch with the given leaf kinds and contents. -/
def assemble (leaves : List Leaf) (fields : Option (List (Text × Option Sketch)))
    (items : Option (List Sketch)) : Sketch :=
  match fields.mapM wholeFields?, items.mapM fun items => items.mapM shape? with
  | some fields, some items => .whole ⟨leaves, fields, items⟩
  | _, _ => .gapped none leaves fields items

/-- The sketch with the named leaf kinds and the given contents. -/
def make (markers : List Text) (fields : Option (List (Text × Option Sketch)))
    (items : Option (List Sketch)) : Except Shape.MakeFault Sketch := do
  let leaves ← Shape.checkParts markers ((fields.getD []).map (·.1))
    (fields.isSome || items.isSome)
  return assemble leaves fields items

/-- The sketch with one more leaf kind, last unless it is there already. -/
def withLeaf (l : Leaf) (k : Sketch) : Sketch :=
  if l ∈ k.leaves then k else assemble (k.leaves ++ [l]) k.fields k.items

/-- The sketch with one more leaf kind, given by its name. -/
def withMarker (marker : Text) (k : Sketch) : Except Shape.MakeFault Sketch :=
  let markers := k.leaves.map Leaf.name
  if marker ∈ markers then .ok k else make (markers ++ [marker]) k.fields k.items

/-- The normal form, which a sketch with gaps has not. -/
def normalize (k : Sketch) : Except Gap Sketch := do
  let s ← k.shape .kinds
  return .whole s.normalize

/-! ### Recording -/

mutual

/-- Numbers the parts with gaps that have no number yet, from `next` on, and gives
the first number that is still free. -/
def record (next : Nat) : Sketch → Sketch × Nat
  | .whole s => (.whole s, next)
  | .gapped (some n) leaves fields items => (.gapped (some n) leaves fields items, next)
  | .gapped none leaves fields items =>
    let (fields, free) := match fields with
      | none => (none, next + 1)
      | some fields =>
        let (fields, free) := recordFields (next + 1) fields
        (some fields, free)
    let (items, free) := match items with
      | none => (none, free)
      | some items =>
        let (items, free) := recordItems free items
        (some items, free)
    (.gapped (some next) leaves fields items, free)
termination_by structural k => k

/-- Numbers the parts of fields. -/
def recordFields (next : Nat) :
    List (Text × Option Sketch) → List (Text × Option Sketch) × Nat
  | [] => ([], next)
  | (name, none) :: rest =>
    let (rest, free) := recordFields next rest
    ((name, none) :: rest, free)
  | (name, some k) :: rest =>
    let (k, free) := k.record next
    let (rest, free) := recordFields free rest
    ((name, some k) :: rest, free)
termination_by structural fields => fields

/-- Numbers the parts of items. -/
def recordItems (next : Nat) : List Sketch → List Sketch × Nat
  | [] => ([], next)
  | k :: rest =>
    let (k, free) := k.record next
    let (rest, free) := recordItems free rest
    (k :: rest, free)
termination_by structural items => items

end

/-! ### Depth and description -/

mutual

/-- How deeply containers nest in a sketch. -/
def depth : Sketch → Nat
  | .whole s => s.depth
  | .gapped _ _ none none => 0
  | .gapped _ _ (some fields) none => 1 + fieldsDepth fields
  | .gapped _ _ none (some items) => 1 + itemsDepth items
  | .gapped _ _ (some fields) (some items) => 1 + max (fieldsDepth fields) (itemsDepth items)
termination_by structural k => k

/-- The largest depth among fields. -/
def fieldsDepth : List (Text × Option Sketch) → Nat
  | [] => 0
  | (_, none) :: rest => fieldsDepth rest
  | (_, some k) :: rest => max k.depth (fieldsDepth rest)
termination_by structural fields => fields

/-- The largest depth among items. -/
def itemsDepth : List Sketch → Nat
  | [] => 0
  | k :: rest => max k.depth (itemsDepth rest)
termination_by structural items => items

end

mutual

/-- A sketch as reports describe it; a gap is `None`. -/
def describe : Sketch → Text
  | .whole s => s.describe
  | .gapped _ leaves fields items =>
    Shape.describeParts leaves
      (match fields with
        | none => none
        | some fields => some (describeFields fields))
      (match items with
        | none => none
        | some items => some (describeItems items))
termination_by structural k => k

/-- The descriptions of fields. -/
def describeFields : List (Text × Option Sketch) → List Text
  | [] => []
  | (name, none) :: rest => .concat [name, ": None"] :: describeFields rest
  | (name, some k) :: rest => .concat [name, ": ", k.describe] :: describeFields rest
termination_by structural fields => fields

/-- The descriptions of items. -/
def describeItems : List Sketch → List Text
  | [] => []
  | k :: rest => k.describe :: describeItems rest
termination_by structural items => items

end

end Sketch
end SampleShape
