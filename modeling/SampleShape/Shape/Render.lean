/-
# Type text

A shape is written as a TypeScript type.  Its kinds are the members of a union,
in the order leaves, object, array:

  * a leaf kind is written by name, the placeholder by the style's own word;
  * an object is a block with one field on a line, indented by its level, and its
    closing brace one level less;
  * an array is its item types with `[]`, in parentheses unless there is exactly
    one item type.

A field that may be unfilled has a `?` after its name and no `undefined` among
the members of its union.  An empty member is left out of a union.
-/

import SampleShape.Shape

namespace SampleShape

/-- How a type declaration is written: its name, whether it is exported, the
indentation of one level, the text between a field name and its type, and the
word for the placeholder. -/
structure Style where
  typeName : Text := "Data"
  exported : Bool := true
  indent : Text := "\t"
  separator : Text := " : "
  unknownMarker : Text := "unknown"
  deriving DecidableEq

namespace Shape

/-- The union members for leaf kinds; a hidden `undefined` is left out. -/
def leafPieces (style : Style) (hideUndefined : Bool) (leaves : List Leaf) : List Text :=
  (leaves.filter fun l => !(hideUndefined && l == .undefined)).map fun l =>
    if l = .unknown then style.unknownMarker else l.name

/-- A union of the members that are not empty. -/
def unionText (pieces : List Text) : Text :=
  .join " | " (pieces.filter fun p => !p.isEmpty)

/-- The indentation of a level; levels below one have none. -/
def indentation (style : Style) (level : Int) : Text := .times level.toNat style.indent

/-- An object block around its lines. -/
def blockText (style : Style) (level : Int) (lines : List Text) : Text :=
  .concat ["\x7b\n", .join ",\n" lines, "\n", indentation style (level - 1), "\x7d"]

/-- An array of the given item types. -/
def arrayText (items : List Text) : Text :=
  match items with
  | [item] => .concat [item, "[]"]
  | _ => .concat ["(", .join " | " items, ")[]"]

mutual

/-- The text of a shape at a level, with `undefined` shown or hidden. -/
def renderAt (style : Style) (hideUndefined : Bool) (level : Int) : Shape → Text
  | ⟨leaves, fields, items⟩ =>
    unionText (leafPieces style hideUndefined leaves ++
      (match fields with
        | none => []
        | some fields => [blockText style level (fieldLines style level fields)]) ++
      (match items with
        | none => []
        | some items => [arrayText (itemTexts style level items)]))
termination_by structural s => s

/-- The lines of an object block. -/
def fieldLines (style : Style) (level : Int) : List (Text × Shape) → List Text
  | [] => []
  | (name, s) :: rest =>
    .concat [indentation style level, name, if s.isOptional then "?" else [], style.separator,
      s.renderAt style true (level + 1)] :: fieldLines style level rest
termination_by structural fields => fields

/-- The item types of an array, which are at the level of the array. -/
def itemTexts (style : Style) (level : Int) : List Shape → List Text
  | [] => []
  | s :: rest => s.renderAt style false level :: itemTexts style level rest
termination_by structural items => items

end

theorem fieldLines_eq_map (style : Style) (level : Int) (fields : List (Text × Shape)) :
    fieldLines style level fields = fields.map fun f =>
      .concat [indentation style level, f.1, if f.2.isOptional then "?" else [], style.separator,
        f.2.renderAt style true (level + 1)] := by
  induction fields with
  | nil => rfl
  | cons f rest ih => rw [fieldLines, List.map_cons, ih]

theorem itemTexts_eq_map (style : Style) (level : Int) (items : List Shape) :
    itemTexts style level items = items.map (renderAt style false level) := by
  induction items with
  | nil => rfl
  | cons s rest ih => rw [itemTexts, List.map_cons, ih]

/-- The type text of a shape; `level` is the level of the fields of its object
block. -/
def render (style : Style) (level : Int) (s : Shape) : Text := s.renderAt style false level

/-- The declaration of a shape under the style's name. -/
def declaration (style : Style) (s : Shape) : Text :=
  .concat [if style.exported then "export " else [], "type ", style.typeName, " = ",
    s.render style 1, ";"]

end Shape
end SampleShape
