/-
# Equivalence of shapes

Two shapes are equivalent when they have the same kinds, the same field names
with equivalent shapes, and the same items up to equivalence: every item of
either has an equivalent item in the other.  The order of leaves, fields and
items does not matter, nor does the number of equivalent items.

`dedupe` keeps the first of every group of equivalent shapes.
-/

import SampleShape.Shape

namespace SampleShape
namespace Shape

/-- Whether two lists of fields have the same names. -/
def sameNames {φ : Type} (fs gs : List (Text × φ)) : Bool :=
  fs.all (fun f => hasField f.1 gs) && gs.all (fun g => hasField g.1 fs)

/-- Whether every row of a table has a hit, and every column.  The columns stand
for the elements of `ys`. -/
def hitsAll {α : Type} (ys : List α) (rows : List (List Bool)) : Bool :=
  rows.all (·.any id) && (rows.foldl (List.zipWith or) (ys.map fun _ => false)).all id

mutual

/-- Structural equivalence.  Each pair of items is compared once. -/
def equiv : Shape → Shape → Bool
  | ⟨leaves, fields, items⟩, b =>
    leaves.all (· ∈ b.leaves) && b.leaves.all (· ∈ leaves) &&
    (match fields, b.fields with
      | none, none => true
      | some fs, some gs => sameNames fs gs && equivFields fs gs
      | _, _ => false) &&
    (match items, b.items with
      | none, none => true
      | some xs, some ys => hitsAll ys (equivRows xs ys)
      | _, _ => false)
termination_by structural a => a

/-- Whether each field has an equivalent shape under its name on the other side. -/
def equivFields : List (Text × Shape) → List (Text × Shape) → Bool
  | [], _ => true
  | (name, s) :: rest, gs =>
    (match field? name gs with
      | some t => s.equiv t
      | none => false) && equivFields rest gs
termination_by structural fs => fs

/-- The table of which items of the first list are equivalent to which of the
second. -/
def equivRows : List Shape → List Shape → List (List Bool)
  | [], _ => []
  | x :: xs, ys => (ys.map fun y => x.equiv y) :: equivRows xs ys
termination_by structural xs => xs

end

theorem equivFields_eq_all (fs gs : List (Text × Shape)) :
    equivFields fs gs = fs.all fun f => (field? f.1 gs).any fun t => f.2.equiv t := by
  induction fs with
  | nil => rfl
  | cons f rest ih =>
    obtain ⟨name, s⟩ := f
    rw [equivFields, List.all_cons, ih]
    cases field? name gs <;> rfl

theorem equivRows_eq_map (xs ys : List Shape) :
    equivRows xs ys = xs.map fun x => ys.map fun y => x.equiv y := by
  induction xs with
  | nil => rfl
  | cons x xs ih => rw [equivRows, List.map_cons, ih]

theorem foldl_zipWith_or {α β : Type} (r : α → β → Bool) (xs : List α) (ys : List β)
    (f : β → Bool) :
    (xs.map fun x => ys.map (r x)).foldl (List.zipWith or) (ys.map f) =
      ys.map fun y => f y || xs.any fun x => r x y := by
  induction xs generalizing f with
  | nil => simp
  | cons x xs ih =>
    have h : List.zipWith or (ys.map f) (ys.map (r x)) = ys.map fun y => f y || r x y := by
      simp [List.zipWith_map, List.zipWith_self]
    rw [List.map_cons, List.foldl_cons, h, ih]
    simp [Bool.or_assoc]

theorem hitsAll_map {α β : Type} (r : α → β → Bool) (xs : List α) (ys : List β) :
    hitsAll ys (xs.map fun x => ys.map (r x)) =
      ((xs.all fun x => ys.any (r x)) && ys.all fun y => xs.any fun x => r x y) := by
  rw [hitsAll, foldl_zipWith_or]
  simp [List.all_map, List.any_map, Function.comp_def]

/-- **Items agree when each side covers the other:** every item has an equivalent
item on the other side. -/
theorem hitsAll_equivRows (xs ys : List Shape) :
    hitsAll ys (equivRows xs ys) =
      ((xs.all fun x => ys.any fun y => x.equiv y) &&
        ys.all fun y => xs.any fun x => x.equiv y) := by
  rw [equivRows_eq_map, hitsAll_map]

/-- Appends the shapes that are equivalent to none kept before them. -/
def dedupeOnto (kept : List Shape) : List Shape → List Shape
  | [] => kept
  | s :: rest =>
    if kept.any (·.equiv s) then dedupeOnto kept rest else dedupeOnto (kept ++ [s]) rest

/-- The shapes without those equivalent to an earlier one. -/
def dedupe (shapes : List Shape) : List Shape := dedupeOnto [] shapes

end Shape
end SampleShape
