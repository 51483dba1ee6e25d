/-
# The file tree

The files of a run live in a tree of directories below a root.  A location is the
row of names that leads from the root to an entry; the tree lists its entries by
location.  One directory is the working directory; it and those above it are always
there.

A path leads to a location by walking, an absolute path from the root and any other
from the working directory: each name but the last has to be a directory, and `..`
steps back to the parent.  The root is its own parent.

A name is a row of bytes, of at most 255, and a whole path has at most 4095.  Two
texts that are the same bytes name the same entry.
-/

import SampleShape.Files.Path
import SampleShape.Text.Utf8

namespace SampleShape

/-- What stands at a location. -/
inductive Entry where
  | directory
  | file (content : List UInt8)
  deriving DecidableEq

/-- The name of an entry in its directory. -/
abbrev Name := List UInt8

/-- The names that lead from the root to an entry. -/
abbrev Location := List Name

/-- Why an operation on a path fails. -/
inductive FileCause where
  | notFound
  | exists
  | notDirectory
  | isDirectory
  | nameTooLong
  deriving DecidableEq

namespace FileCause

/-- The number of a cause. -/
def number : FileCause → Nat
  | .notFound => 2
  | .exists => 17
  | .notDirectory => 20
  | .isDirectory => 21
  | .nameTooLong => 36

/-- The wording of a cause. -/
def message : FileCause → Text
  | .notFound => "No such file or directory"
  | .exists => "File exists"
  | .notDirectory => "Not a directory"
  | .isDirectory => "Is a directory"
  | .nameTooLong => "File name too long"

end FileCause

/-- The failure of an operation on a path: the tree refuses it, or the path
cannot be a path at all. -/
inductive FileFault where
  | refused (cause : FileCause) (path : Text)
  | nullByte
  | unencodable (fault : Utf8.EncodeFault)

namespace FileFault

/-- The wording of a failure. -/
def message : FileFault → Text
  | .refused cause path =>
    .concat ["[Errno ", .ofNat cause.number, "] ", cause.message, ": ", path.quoted]
  | .nullByte => "embedded null byte"
  | .unencodable fault => fault.message

end FileFault

/-- A tree of files and its working directory. -/
structure Tree where
  entries : List (Location × Entry)
  home : Location := []

namespace Tree

/-- The tree with nothing below its root. -/
def empty : Tree where
  entries := []

/-- The name that steps back to the parent. -/
def parentName : Name := Utf8.nameBytes ".."

/-- What stands at a location; the working directory and those above it are there. -/
def entry? (t : Tree) (l : Location) : Option Entry :=
  if l.isPrefixOf t.home then some .directory else t.entries.lookup l

/-- Stores an entry at a location. -/
def put (l : Location) (e : Entry) : List (Location × Entry) → List (Location × Entry)
  | [] => [(l, e)]
  | (l', e') :: rest => if l' = l then (l, e) :: rest else (l', e') :: put l e rest

/-- The tree with an entry at a location. -/
def set (t : Tree) (l : Location) (e : Entry) : Tree := { t with entries := put l e t.entries }

/-- The most bytes of a name. -/
def maxName : Nat := 255

/-- The most bytes of a path. -/
def maxPath : Nat := 4095

/-- The location that names lead to from a directory. -/
def walk (t : Tree) : Location → List Name → Except FileCause Location
  | l, [] => .ok l
  | l, name :: rest =>
    match t.entry? l with
    | none => .error .notFound
    | some (.file _) => .error .notDirectory
    | some .directory =>
      if maxName < name.length then .error .nameTooLong
      else if name = parentName then walk t l.dropLast rest
      else walk t (l ++ [name]) rest

/-- The location that a path starts from. -/
def start (t : Tree) (p : Path) : Location := if p.root.isEmpty then t.home else []

/-- The location of a path. -/
def locate (t : Tree) (p : Path) : Except FileFault Location :=
  match Utf8.nameFault? p.text with
  | some fault => .error (.unencodable fault)
  | none =>
    if p.text.any (·.val == 0) then .error .nullByte
    else if maxPath < (Utf8.nameBytes p.text).length then .error (.refused .nameTooLong p.text)
    else (t.walk (t.start p) (p.names.map Utf8.nameBytes)).mapError (.refused · p.text)

/-- What stands at a path, if it leads anywhere. -/
def at? (t : Tree) (p : Path) : Option Entry :=
  match t.locate p with
  | .ok l => t.entry? l
  | .error _ => none

/-- Whether a path leads anywhere.  It does not where it cannot be a path at all;
that it is too long is a failure. -/
def exists? (t : Tree) (p : Path) : Except FileFault Bool :=
  match t.locate p with
  | .ok l => .ok (t.entry? l).isSome
  | .error (.refused .nameTooLong path) => .error (.refused .nameTooLong path)
  | .error _ => .ok false

/-- Whether a path leads to a directory. -/
def isDirectory (t : Tree) (p : Path) : Bool := t.at? p == some .directory

/-- The content of the file at a path. -/
def read (t : Tree) (p : Path) : Except FileFault (List UInt8) := do
  let l ← t.locate p
  match t.entry? l with
  | none => .error (.refused .notFound p.text)
  | some .directory => .error (.refused .isDirectory p.text)
  | some (.file content) => .ok content

/-- Stores a file at a path, in the place of an earlier one.  The walk to its
location has made sure that its parent is a directory. -/
def write (t : Tree) (p : Path) (content : List UInt8) : Except FileFault Tree := do
  let l ← t.locate p
  match t.entry? l with
  | some .directory => .error (.refused .isDirectory p.text)
  | _ => .ok (t.set l (.file content))

/-- Makes a directory at a path where there is nothing yet. -/
def makeDirectory (t : Tree) (p : Path) : Except FileFault Tree := do
  let l ← t.locate p
  match t.entry? l with
  | some _ => .error (.refused .exists p.text)
  | none => .ok (t.set l .directory)

/-- Makes a directory where its parent is in place; a directory that is there
already is as good. -/
def ensureDirectory (t : Tree) (p : Path) : Except FileFault Tree :=
  match t.makeDirectory p with
  | .ok t' => .ok t'
  | .error .nullByte => .error .nullByte
  | .error (.unencodable fault) => .error (.unencodable fault)
  | .error fault => if t.isDirectory p then .ok t else .error fault

/-- Makes a directory and those above it, the innermost missing one last.  The
names are given from the last to the first.  What was made before a failure
stays. -/
def makeDirectories (root : Text) : List Text → Tree → Except FileFault Unit × Tree
  | [], t =>
    match t.ensureDirectory ⟨root, []⟩ with
    | .ok t' => (.ok (), t')
    | .error fault => (.error fault, t)
  | name :: above, t =>
    let p : Path := ⟨root, (name :: above).reverse⟩
    match t.ensureDirectory p with
    | .ok t' => (.ok (), t')
    | .error (.refused .notFound _) =>
      match makeDirectories root above t with
      | (.error fault, t') => (.error fault, t')
      | (.ok _, t') =>
        match t'.ensureDirectory p with
        | .ok t'' => (.ok (), t'')
        | .error fault => (.error fault, t')
    | .error fault => (.error fault, t)

/-- Makes the directory at a path, and those above it. -/
def makePath (t : Tree) (p : Path) : Except FileFault Unit × Tree :=
  makeDirectories p.root p.names.reverse t

/-- The text of an entry's location; a directory ends in a slash. -/
def entryText : Location × Entry → Text
  | (l, .directory) => .concat [.join "/" (l.map Utf8.nameText), "/"]
  | (l, .file _) => .join "/" (l.map Utf8.nameText)

/-- All entries below the working directory, by what leads to them from there, in the
order of their texts. -/
def listing (t : Tree) : List Text :=
  let below := t.entries.filter fun entry => t.home.isPrefixOf entry.1
  (below.map fun entry => entryText (entry.1.drop t.home.length, entry.2)).mergeSort Text.le

end Tree
end SampleShape
