/-
# Nodes

The tokens of a document make up a tree of words, sequences and mappings, each with
the place where it starts.  An item or a value that is left out is an empty word.
A sequence that is the value of a key may stand in the column of that key, and then
no token opens or closes it.

A file holds one document, or none at all.
-/

import SampleShape.Yaml.Token

namespace SampleShape
namespace Yaml

/-- A part of a document. -/
inductive Node where
  | word (start : Mark) (quoted : Bool) (t : Text)
  | sequence (start : Mark) (items : List Node)
  | mapping (start : Mark) (entries : List (Node × Node))

namespace Node

/-- Where a node starts. -/
def start : Node → Mark
  | .word start _ _ => start
  | .sequence start _ => start
  | .mapping start _ => start

/-- The word for the kind of a node. -/
def kindWord : Node → Text
  | .word .. => "scalar"
  | .sequence .. => "sequence"
  | .mapping .. => "mapping"

/-- What is left out at a place. -/
def omitted (here : Mark) : Node := .word here false []

end Node

/-! ### Reading tokens -/

/-- A part of reading, which uses up tokens. -/
abbrev Reading (α : Type) := StateT Tokens (Except Fault) α

namespace Reading

/-- The next token. -/
def peek : Reading Token := do
  match ← get with
  | .next t _ => return t
  | .finished here => return ⟨.streamEnd, here, here⟩
  | .broken f => throw f

/-- Uses up a token. -/
def drop : Reading Unit := modify fun
  | .next _ rest => rest
  | .finished here => .finished here
  | .broken f => .broken f

/-- A node, unless the next token shows that it is left out. -/
def unlessOmitted (ends : List Symbol) (here : Mark) (node : Reading Node) : Reading Node := do
  if (← peek).symbol ∈ ends then return .omitted here else node

/-- The tokens that show that an item of a sequence is left out. -/
def itemEnds : List Symbol := [.entry, .blockEnd]

/-- The tokens that show that a key or a value of a mapping is left out. -/
def entryEnds : List Symbol := [.key, .value, .blockEnd]

mutual

/-- A node.  As a part of a mapping it may be a sequence that no token opens.  The
last argument is more than the number of nested calls. -/
def node (inMapping : Bool) : Nat → Reading Node
  | 0 => throw .unsupported
  | n + 1 => do
    let t ← peek
    match t.symbol, inMapping with
    | .word quoted w, _ =>
      drop
      return .word t.start quoted w
    | .entry, true => return .sequence t.start (← openItems n)
    | .sequenceStart, _ =>
      drop
      return .sequence t.start (← items t.start n)
    | .mappingStart, _ =>
      drop
      return .mapping t.start (← entries t.start n)
    | found, _ => throw (.unexpected (.node t.start) found t.start)

/-- The items of a sequence that started at a place. -/
def items (start : Mark) : Nat → Reading (List Node)
  | 0 => throw .unsupported
  | n + 1 => do
    let t ← peek
    match t.symbol with
    | .entry =>
      drop
      let item ← unlessOmitted itemEnds t.stop (node false n)
      return item :: (← items start n)
    | .blockEnd =>
      drop
      return []
    | found => throw (.unexpected (.sequence start) found t.start)

/-- The items of a sequence that no token closes. -/
def openItems : Nat → Reading (List Node)
  | 0 => throw .unsupported
  | n + 1 => do
    let t ← peek
    match t.symbol with
    | .entry =>
      drop
      let item ← unlessOmitted (itemEnds ++ entryEnds) t.stop (node false n)
      return item :: (← openItems n)
    | _ => return []

/-- The entries of a mapping that started at a place. -/
def entries (start : Mark) : Nat → Reading (List (Node × Node))
  | 0 => throw .unsupported
  | n + 1 => do
    let t ← peek
    match t.symbol with
    | .key =>
      drop
      let key ← unlessOmitted entryEnds t.stop (node true n)
      let value ← entryValue n
      return (key, value) :: (← entries start n)
    | .blockEnd =>
      drop
      return []
    | found => throw (.unexpected (.mapping start) found t.start)

/-- The value of an entry. -/
def entryValue : Nat → Reading Node
  | 0 => throw .unsupported
  | n + 1 => do
    let t ← peek
    match t.symbol with
    | .value =>
      drop
      unlessOmitted entryEnds t.stop (node true n)
    | _ => return .omitted t.start

end

/-- Passes over marks that end documents, at most as many as the argument. -/
def dropEnds : Nat → Reading Unit
  | 0 => return
  | n + 1 => do
    if (← peek).symbol = .documentEnd then
      drop
      dropEnds n

/-- The tokens that show that a document is empty. -/
def documentEnds : List Symbol := [.documentStart, .documentEnd, .streamEnd]

/-- The document of a file, if it holds one; the argument bounds the nested calls. -/
def document (bound : Nat) : Reading (Option Node) := do
  let t ← peek
  if t.symbol = .streamEnd then return none
  let root ←
    if t.symbol = .documentStart then do
      drop
      unlessOmitted documentEnds (← peek).start (node false bound)
    else node false bound
  dropEnds bound
  let t ← peek
  match t.symbol with
  | .streamEnd => return some root
  | .documentStart => throw (.secondDocument root.start t.start)
  | found => throw (.unexpected .document found t.start)

end Reading

/-- The document that tokens make up.  A node, an item, an entry and its value need
four calls at most for every token. -/
def Tokens.document (ts : Tokens) : Except Fault (Option Node) :=
  return (← (Reading.document (4 * ts.size + 4)).run ts).1

end Yaml
end SampleShape
