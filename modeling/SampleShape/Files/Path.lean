/-
# Paths

A path is a row of names below a root.  Its text is normal: repeated slashes, `.`
names and a slash at the end are dropped, `..` is kept, and the path without any
name is written `.`.
-/

import SampleShape.Text

namespace SampleShape

/-- A path: the slashes it starts with, none for a relative path, and its names. -/
structure Path where
  root : Text
  names : List Text
  deriving DecidableEq

namespace Path

/-- The slashes that a path keeps at its front: one, or exactly two. -/
def rootOf (t : Text) : Text :=
  match (t.takeWhile (·.is '/')).length with
  | 0 => []
  | 2 => "//"
  | _ => "/"

/-- The path that a text spells. -/
def ofText (t : Text) : Path :=
  ⟨rootOf t, (t.splitOn '/').filter fun n => !n.isEmpty && n != Text.ofString "."⟩

/-- The text of a path. -/
def text (p : Path) : Text :=
  if p.root.isEmpty && p.names.isEmpty then "." else .concat [p.root, .join "/" p.names]

/-- The path without its last name. -/
def parent (p : Path) : Path := ⟨p.root, p.names.dropLast⟩

/-- The last name. -/
def name (p : Path) : Text := p.names.getLast?.getD []

/-- The part of the last name from its last dot on, unless that dot is its first
or its last letter. -/
def suffix (p : Path) : Text :=
  let ending := (p.name.reverse.takeWhile fun c => !c.is '.').reverse
  let stem := p.name.length - ending.length - 1
  if ending.isEmpty || stem = 0 || ending.length = p.name.length then []
  else .concat [".", ending]

end Path
end SampleShape
