/-
# Structural shapes

A shape records which kinds of value were observed at one place.  The leaf kinds
are recorded by name, in the order of their first observation; the two container
kinds carry what was observed inside them: an object its named fields, an array
the shapes of its items.  Several kinds at once form a union.

A shape built by `Shape.make` has distinct leaves, distinct field names and at
least one kind.
-/

import SampleShape.Text.Quoted

namespace SampleShape

/-- The kinds of value that hold no others.  `undefined` marks a place that may
be unfilled, `unknown` a place about which nothing was observed. -/
inductive Leaf where
  | string
  | number
  | boolean
  | null
  | undefined
  | unknown
  deriving DecidableEq

namespace Leaf

/-- The name of a leaf kind. -/
def name : Leaf → Text
  | .string => "string"
  | .number => "number"
  | .boolean => "boolean"
  | .null => "null"
  | .undefined => "undefined"
  | .unknown => "unknown"

/-- All leaf kinds. -/
def all : List Leaf := [.string, .number, .boolean, .null, .undefined, .unknown]

theorem mem_all (l : Leaf) : l ∈ all := by cases l <;> decide

/-- The leaf kind of a given name. -/
def ofName? (t : Text) : Option Leaf := all.find? fun l => l.name == t

end Leaf

/-- The kinds of value: the leaf kinds and the two containers. -/
inductive Kind where
  | leaf (l : Leaf)
  | object
  | array
  deriving DecidableEq

namespace Kind

/-- The name of a kind. -/
def name : Kind → Text
  | .leaf l => l.name
  | .object => "object"
  | .array => "array"

/-- The given leaf kinds, and the containers that were observed. -/
def all (leaves : List Leaf) (isObject isArray : Bool) : List Kind :=
  leaves.map .leaf ++ (if isObject then [.object] else []) ++ (if isArray then [.array] else [])

/-- The names of kinds in alphabetical order. -/
def names (ks : List Kind) : List Text := (ks.map name).mergeSort Text.le

/-- Whether two lists hold the same kinds. -/
def sameSet (ks ms : List Kind) : Bool := ks.all (· ∈ ms) && ms.all (· ∈ ks)

end Kind

/-- What was observed at one place: leaf kinds, the fields of objects, and the
shapes of array items. -/
structure Shape where
  leaves : List Leaf
  fields : Option (List (Text × Shape))
  items : Option (List Shape)

namespace Shape

/-- The shape of one leaf kind. -/
def leaf (l : Leaf) : Shape := ⟨[l], none, none⟩

/-- The placeholder for a place about which nothing was observed. -/
def unknown : Shape := leaf .unknown

/-- The shape of objects with given fields. -/
def object (fields : List (Text × Shape)) : Shape := ⟨[], some fields, none⟩

/-- The shape of arrays whose items have one of the given shapes. -/
def array (items : List Shape) : Shape := ⟨[], none, some items⟩

/-- The field name that stands for the keys of a mapping that was empty. -/
def anyKey : Text := "[k:string]"

/-- Whether objects were observed. -/
def isObject (s : Shape) : Bool := s.fields.isSome

/-- Whether arrays were observed. -/
def isArray (s : Shape) : Bool := s.items.isSome

/-- Whether the place may be unfilled. -/
def isOptional (s : Shape) : Bool := decide (Leaf.undefined ∈ s.leaves)

/-- Whether the shape is the bare placeholder. -/
def isPlaceholder : Shape → Bool
  | ⟨[.unknown], none, none⟩ => true
  | _ => false

/-- The kinds of a shape, leaves first. -/
def kinds (s : Shape) : List Kind := Kind.all s.leaves s.isObject s.isArray

/-- The names of the kinds in alphabetical order. -/
def kindNames (s : Shape) : List Text := Kind.names s.kinds

/-- Whether two shapes have the same set of kinds. -/
def sameKinds (a b : Shape) : Bool := Kind.sameSet a.kinds b.kinds

/-- The shape of the field of a given name. -/
def field? (name : Text) (fields : List (Text × Shape)) : Option Shape := fields.lookup name

/-- Whether a field has a given name. -/
def hasField {φ : Type} (name : Text) (fields : List (Text × φ)) : Bool :=
  fields.any (·.1 == name)

/-- The shape with one more leaf kind, last unless it is there already. -/
def withLeaf (l : Leaf) (s : Shape) : Shape :=
  if l ∈ s.leaves then s else { s with leaves := s.leaves ++ [l] }

/-! ### Making shapes from names -/

/-- Why leaf names, fields and items make no shape. -/
inductive MakeFault where
  | unrecognizedMarkers (markers : List Text)
  | duplicateMarkers (markers : List Text)
  | duplicateNames (names : List Text)
  | noKind

/-- The wording of a refusal. -/
def MakeFault.message : MakeFault → Text
  | .unrecognizedMarkers markers => .concat ["Unrecognized kind markers: ", Text.quotedList markers]
  | .duplicateMarkers markers => .concat ["Duplicate kind markers: ", Text.quotedList markers]
  | .duplicateNames names => .concat ["Duplicate property names: ", Text.quotedList names]
  | .noKind => "An InferredType must carry at least one kind"

/-- The leaf kinds of the given names, for a shape that also has fields of the
given names, or other contents.  The faults are looked for in the order in which
`MakeFault` lists them. -/
def checkParts (markers fieldNames : List Text) (hasContents : Bool) :
    Except MakeFault (List Leaf) :=
  let unrecognized := markers.filter fun m => (Leaf.ofName? m).isNone
  if !unrecognized.isEmpty then .error (.unrecognizedMarkers unrecognized)
  else if ¬ markers.Nodup then .error (.duplicateMarkers markers)
  else if ¬ fieldNames.Nodup then .error (.duplicateNames fieldNames)
  else if markers.isEmpty && !hasContents then .error .noKind
  else .ok (markers.filterMap Leaf.ofName?)

/-- The names of fields in order. -/
def names (fields : List (Text × Shape)) : List Text := fields.map (·.1)

/-- The shape with the named leaf kinds and the given contents. -/
def make (markers : List Text) (fields : Option (List (Text × Shape)))
    (items : Option (List Shape)) : Except MakeFault Shape := do
  let leaves ← checkParts markers (names (fields.getD [])) (fields.isSome || items.isSome)
  return ⟨leaves, fields, items⟩

/-! ### Depth -/

mutual

/-- How deeply containers nest in a shape: a shape without containers has depth
zero. -/
def depth : Shape → Nat
  | ⟨_, none, none⟩ => 0
  | ⟨_, some fields, none⟩ => 1 + fieldsDepth fields
  | ⟨_, none, some items⟩ => 1 + itemsDepth items
  | ⟨_, some fields, some items⟩ => 1 + max (fieldsDepth fields) (itemsDepth items)
termination_by structural s => s

/-- The largest depth among fields. -/
def fieldsDepth : List (Text × Shape) → Nat
  | [] => 0
  | (_, s) :: rest => max s.depth (fieldsDepth rest)
termination_by structural fields => fields

/-- The largest depth among items. -/
def itemsDepth : List Shape → Nat
  | [] => 0
  | s :: rest => max s.depth (itemsDepth rest)
termination_by structural items => items

end

theorem depth_le_fieldsDepth {fields : List (Text × Shape)} {f : Text × Shape} (h : f ∈ fields) :
    f.2.depth ≤ fieldsDepth fields := by
  induction fields with
  | nil => cases h
  | cons g rest ih =>
    rw [fieldsDepth]
    rcases List.mem_cons.1 h with rfl | h
    · exact Nat.le_max_left _ _
    · exact Nat.le_trans (ih h) (Nat.le_max_right _ _)

theorem depth_le_itemsDepth {items : List Shape} {s : Shape} (h : s ∈ items) :
    s.depth ≤ itemsDepth items := by
  induction items with
  | nil => cases h
  | cons t rest ih =>
    rw [itemsDepth]
    rcases List.mem_cons.1 h with rfl | h
    · exact Nat.le_max_left _ _
    · exact Nat.le_trans (ih h) (Nat.le_max_right _ _)

/-! ### Description -/

/-- The description of a place from its leaf kinds and the descriptions of its
contents. -/
def describeParts (leaves : List Leaf) (fields items : Option (List Text)) : Text :=
  let fieldsPart : List Text := match fields with
    | none => []
    | some fields => [.concat ["\x7b", .join ", " fields, "\x7d"]]
  let itemsPart : List Text := match items with
    | none => []
    | some items => [.concat ["[", .join ", " items, "]"]]
  .concat ["InferredType(", .join " | " (leaves.map Leaf.name ++ fieldsPart ++ itemsPart), ")"]

mutual

/-- A shape as reports describe it: leaves, then fields, then items. -/
def describe : Shape → Text
  | ⟨leaves, fields, items⟩ =>
    describeParts leaves
      (match fields with
        | none => none
        | some fields => some (describeFields fields))
      (match items with
        | none => none
        | some items => some (describeItems items))
termination_by structural s => s

/-- The descriptions of fields. -/
def describeFields : List (Text × Shape) → List Text
  | [] => []
  | (name, s) :: rest => .concat [name, ": ", s.describe] :: describeFields rest
termination_by structural fields => fields

/-- The descriptions of items. -/
def describeItems : List Shape → List Text
  | [] => []
  | s :: rest => s.describe :: describeItems rest
termination_by structural items => items

end

end Shape
end SampleShape
