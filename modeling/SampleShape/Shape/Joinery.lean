/-
# Joining, whatever can go wrong

The join of two shapes describes every value that either describes.

  * Leaf kinds are united, the left ones first.
  * Fields are matched by name and joined; a field of one side only becomes
    optional.  Shared fields come first, then those of the left, then those of
    the right.
  * Items are pooled.  Placeholders give way to anything observed; the items with
    fields are joined into one, and so are the other items that are arrays.
  * A container that only one side has is kept as it is.

Equivalent shapes are not changed: their join is the left one.

These are the rules for everything that is joined: for shapes, where nothing can go
wrong, for shapes that have to pass checks when they are put together, and for
sketches, which have gaps that nothing can look into.  `Joinery` is what the rules
need to know of the things that they join.

Joined items are not parts of the things they come from, so the recursion is on
nesting: joining never makes a shape deeper than the deeper of the two, and the
contents of a container are one level less deep.  `joinAt n` is for depths less than
`n`.
-/

import SampleShape.Shape.Equiv

namespace SampleShape

/-- The leaf kinds of both sides, each once. -/
def Shape.joinLeaves (ls ms : List Leaf) : List Leaf := ls ++ ms.filter (· ∉ ls)

/-- What a join needs to know of the things that it joins.  They are of type `σ`, their
fields hold what is of type `φ`, and `m` is for what can happen on the way. -/
structure Joinery (m : Type → Type) (σ φ : Type) where
  leaves : σ → List Leaf
  fields : σ → Option (List (Text × φ))
  items : σ → Option (List σ)
  depth : σ → Nat
  placeholder : σ
  isPlaceholder : σ → Bool
  equiv : σ → σ → m Bool
  dedupe : List σ → m (List σ)
  /-- Joins what a shared name stands for on the left with what is found on the right. -/
  joinShared : (σ → σ → m σ) → Text → φ → Option φ → m φ
  makeOptional : φ → m φ
  assemble : List Leaf → Option (List (Text × φ)) → Option (List σ) → m σ

namespace Joinery

variable {m : Type → Type} [Monad m] {σ φ : Type}

/-- A content that both sides have is joined by `f`, one that only one side has
is kept. -/
def joinContent {α : Type} (f : α → α → m α) : Option α → Option α → m (Option α)
  | some x, some y => do return some (← f x y)
  | some x, none => pure (some x)
  | none, y => pure y

/-- What is joined into one from left to right, if there is anything. -/
def joinRow (j : σ → σ → m σ) : List σ → m (List σ)
  | [] => pure []
  | s :: rest => do return [← rest.foldlM j s]

variable (J : Joinery m σ φ)

/-- Whether there are fields. -/
def isObject (s : σ) : Bool := (J.fields s).isSome

/-- Whether there are items. -/
def isArray (s : σ) : Bool := (J.items s).isSome

/-- The fields of both sides; `j` joins what shared ones hold. -/
def joinFields (j : σ → σ → m σ) (fs gs : List (Text × φ)) : m (List (Text × φ)) := do
  let shared ← (fs.filter fun f => Shape.hasField f.1 gs).mapM fun f => do
    return (f.1, ← J.joinShared j f.1 f.2 (gs.lookup f.1))
  let onlyLeft := fs.filter fun f => !Shape.hasField f.1 gs
  let onlyRight := gs.filter fun g => !Shape.hasField g.1 fs
  let optional ← (onlyLeft ++ onlyRight).mapM fun f => do return (f.1, ← J.makeOptional f.2)
  return shared ++ optional

/-- The items of both sides; `j` joins those that are folded into one. -/
def joinItems (j : σ → σ → m σ) (xs ys : List σ) : m (List σ) := do
  let pool := (← J.dedupe (xs ++ ys)).filter fun s => !J.isPlaceholder s
  if pool.isEmpty then return [J.placeholder]
  let objects ← joinRow j (pool.filter fun s => J.isObject s)
  let arrays ← joinRow j (pool.filter fun s => J.isArray s && !J.isObject s)
  return pool.filter (fun s => !J.isObject s && !J.isArray s) ++ objects ++ arrays

/-- The join of two things; `j` joins their contents. -/
def joinWith (j : σ → σ → m σ) (a b : σ) : m σ := do
  if ← J.equiv a b then return a
  let fields ← joinContent (J.joinFields j) (J.fields a) (J.fields b)
  let items ← joinContent (J.joinItems j) (J.items a) (J.items b)
  J.assemble (Shape.joinLeaves (J.leaves a) (J.leaves b)) fields items

/-- The join of two things of depth less than the first argument. -/
def joinAt : Nat → σ → σ → m σ
  | 0 => fun a _ => pure a
  | n + 1 => J.joinWith (joinAt n)

/-- The join of two things. -/
def join (a b : σ) : m σ := J.joinAt (max (J.depth a) (J.depth b) + 1) a b

/-- The join from left to right of things of which `s` is the first. -/
def joinAll (s : σ) (rest : List σ) : m σ := rest.foldlM J.join s

end Joinery

namespace Shape

variable {m : Type → Type} [Monad m]

/-- The shape with one more leaf kind, which goes through `check` if it is a new one. -/
def withLeafBy (check : Shape → m Shape) (l : Leaf) (s : Shape) : m Shape :=
  if l ∈ s.leaves then pure s else check (s.withLeaf l)

/-- Shapes as things to join.  `missing` says what becomes of a shared field that is not
found on the right; every shape that is put together goes through `check`. -/
def joinery (missing : Text → Shape → m Shape) (check : Shape → m Shape) :
    Joinery m Shape Shape where
  leaves := leaves
  fields := fields
  items := items
  depth := depth
  placeholder := unknown
  isPlaceholder := isPlaceholder
  equiv a b := pure (a.equiv b)
  dedupe shapes := pure (dedupe shapes)
  joinShared j name s
    | none => missing name s
    | some t => j s t
  makeOptional := withLeafBy check .undefined
  assemble leaves fields items := check ⟨leaves, fields, items⟩

end Shape
end SampleShape
