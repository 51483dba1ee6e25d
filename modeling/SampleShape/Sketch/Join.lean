/-
# Comparing and joining sketches

On sketches without gaps, comparing is that of shapes.  Otherwise it goes through fields
and items in order, up to the first difference, and fails at the first gap that it has
to look into.  Two gaps are alike; a gap and a shape cannot be compared.  Nesting bounds
the recursion, as it does for shapes: `compareAt n` is for sketches of depth less than `n`.

Sketches are joined by the rules of `Joinery`.  A gap is carried along where it is only
handed over, and is a failure where it would have to be joined or made optional.
-/

import SampleShape.Sketch
import SampleShape.Shape.Join

namespace SampleShape
namespace Sketch

/-- Compares what stands in two fields; `compare` compares sketches. -/
def compareField (compare : Sketch → Sketch → Except Gap Bool) :
    Option Sketch → Option Sketch → Except Gap Bool
  | some a, some b => compare a b
  | none, none => .ok true
  | _, _ => .error .kinds

/-- Compares two sketches of depth less than the first argument. -/
def compareAt : Nat → Sketch → Sketch → Except Gap Bool
  | 0, _, _ => .ok true
  | n + 1, a, b =>
    if a.isSame b then .ok true
    else match a.shape?, b.shape? with
    | some s, some t => .ok (s.equiv t)
    | _, _ =>
      if !sameKinds a b then .ok false
      else do
        let fieldsAgree ← match a.fields, b.fields with
          | some fs, some gs =>
            if !Shape.sameNames fs gs then .ok false
            else fs.allM fun f => compareField (compareAt n) f.2 ((gs.lookup f.1).getD none)
          | _, _ => .ok true
        if !fieldsAgree then return false
        match a.items, b.items with
        | some xs, some ys =>
          let covered ← xs.allM fun x => ys.anyM (compareAt n x)
          if !covered then return false
          ys.allM fun y => xs.anyM (compareAt n y)
        | _, _ => .ok true

/-- Whether two sketches are equivalent. -/
def compare (a b : Sketch) : Except Gap Bool := compareAt (max a.depth b.depth + 1) a b

/-- The kept sketches, and one more unless it is equivalent to one of them. -/
def keep (kept : List Sketch) (k : Sketch) : Except Gap (List Sketch) := do
  return if ← kept.anyM (compare · k) then kept else kept ++ [k]

/-- The sketches without those equivalent to an earlier one. -/
def dedupe (sketches : List Sketch) : Except Gap (List Sketch) := sketches.foldlM keep []

/-- Sketches as things to join.  A shared field needs a shape on the right, and then on
the left; a field that becomes optional needs one too. -/
def joinery : Joinery (Except Gap) Sketch (Option Sketch) where
  leaves := leaves
  fields := fields
  items := items
  depth := depth
  placeholder := .whole .unknown
  isPlaceholder := isPlaceholder
  equiv := compare
  dedupe := dedupe
  joinShared j name left right := match left, right.getD none with
    | _, none => .error (.sharedField name)
    | none, some _ => .error .kinds
    | some a, some b => do return some (← j a b)
  makeOptional
    | none => .error .markers
    | some k => .ok (some (k.withLeaf .undefined))
  assemble leaves fields items := .ok (assemble leaves fields items)

/-- The join of two sketches. -/
def join (a b : Sketch) : Except Gap Sketch := joinery.join a b

/-- Why sketches have no join. -/
inductive JoinFault where
  | nothing
  | gap (g : Gap)

/-- The wording of the failure. -/
def JoinFault.message : JoinFault → Text
  | .nothing => "Cannot merge an empty sequence of types"
  | .gap g => g.message

/-- The join of a list of sketches, from left to right. -/
def joinAll : List Sketch → Except JoinFault Sketch
  | [] => .error .nothing
  | k :: rest => (joinery.joinAll k rest).mapError .gap

end Sketch
end SampleShape
