/-
# The program

The program copies the files that a command line names into a file tree, carries
the command line out there, and copies back what has changed.  Configurations in YAML
are read by the library's own reader.
-/

import SampleShape.Command
import SampleShape.RunId
import SampleShape.Yaml

namespace SampleShape
namespace Main

/-- The string of a text, without the code points that no string can hold. -/
def stringOf (t : Text) : String :=
  String.ofList ((t.filter (!·.isSurrogate)).map fun c => Char.ofNat c.val)

/-- A path and the paths above it, the outermost first. -/
def chain (p : Path) : List Path :=
  (List.range (p.names.length + 1)).map fun n => ⟨p.root, p.names.take n⟩

/-- Copies what stands at a path, if anything does, into the tree. -/
def load (t : Tree) (p : Path) : IO Tree := do
  match t.locate p with
  | .error _ => return t
  | .ok l =>
    if l.isPrefixOf t.home then return t
    try
      let real ← IO.FS.realPath (stringOf p.text)
      if ← real.isDir then return t.set l .directory
      else return t.set l (.file (← IO.FS.readBinFile real).toList)
    catch _ => return t

/-- Copies what stands at the given paths, and above them, into the tree. -/
def loadAll (t : Tree) (paths : List Text) : IO Tree :=
  (paths.flatMap fun p => chain (Path.ofText p)).foldlM load t

/-- Copies what has changed at a path back from the tree. -/
def store (before after : Tree) (p : Path) : IO Unit := do
  if before.at? p = after.at? p then return
  match after.at? p with
  | some .directory => IO.FS.createDirAll (stringOf p.text)
  | some (.file content) => IO.FS.writeBinFile (stringOf p.text) ⟨content.toArray⟩
  | none => return

/-- The tree in which nothing is known but the working directory. -/
def emptyTree : IO Tree := do
  let directory := Path.ofText (Text.ofString (← IO.currentDir).toString)
  return { Tree.empty with home := directory.names.map Utf8.nameBytes }

/-- A random identifier for a run. -/
def randomRunId : IO Text := do
  let high ← IO.rand 0 0xFFFFFFFFFFFFFFFF
  let low ← IO.rand 0 0xFFFFFFFFFFFFFFFF
  return RunId.ofRandom ((high <<< 64) + low)

/-- Carries out a command line on the files of the working directory. -/
def carryOut (words : List Text) : IO UInt32 := do
  let yaml := some Yaml.reader
  let paths (t : Tree) : List Text := match Command.readLine words with
    | .request r => r.paths yaml t
    | _ => []
  let empty ← emptyTree
  let named ← loadAll empty (paths empty)
  let before ← loadAll named (paths named)
  let w : Workspace := { Workspace.initial with tree := before }
  let (code, w) := Command.execute yaml (← randomRunId) words w
  ((paths before).flatMap fun p => chain (Path.ofText p)).forM (store before w.tree)
  IO.print (stringOf w.journal.output)
  IO.eprint (stringOf w.journal.errors)
  return code.toUInt32

end Main
end SampleShape

def main (args : List String) : IO UInt32 :=
  SampleShape.Main.carryOut (args.map SampleShape.Text.ofString)
