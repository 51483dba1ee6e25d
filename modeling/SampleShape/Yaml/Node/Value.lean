/-
# The values of nodes

Before a mapping gets its value, the entries under the key `<<` are merged: the
mapping there, or each mapping of a sequence there, gives its entries to the front
of the others, the last one of a sequence first.  The key `=` stands for itself.

A document is settled level by level, from the root on: the words of all nodes of
a level before any node of the next one.  Of several faults the report tells the
one that this order meets first.
-/

import SampleShape.Yaml.Node
import SampleShape.Yaml.Scalar

namespace SampleShape
namespace Yaml
namespace Node

/-! ### Merging -/

/-- Whether a node is the key of what is to be merged. -/
def isMergeKey : Node → Bool
  | .word _ false t => t = Text.ofString "<<"
  | _ => false

/-- The value of a word; in quotes it stands for itself. -/
def wordValue (here : Mark) (quoted : Bool) (t : Text) : Except Fault Value :=
  if quoted then .ok (.text t) else scalar here t

/-- The entries that a mapping at a place merges from its value under `<<`; `merge`
gives the entries of a mapping. -/
def mergedFrom (merge : Node → Except Fault (List (Node × Node))) (mapping : Mark) :
    Node → Except Fault (List (Node × Node))
  | .mapping start entries => merge (.mapping start entries)
  | .sequence _ items => do
    let parts ← items.mapM fun
      | .mapping start entries => merge (.mapping start entries)
      | item => .error (.unmergeable mapping true item.kindWord item.start)
    return parts.reverse.flatten
  | .word start _ _ => .error (.unmergeable mapping false "scalar" start)

/-- The entries of a mapping after merging; the first argument bounds the merges
within merges. -/
def merged : Nat → Node → Except Fault (List (Node × Node))
  | 0, _ => .error .unsupported
  | n + 1, .mapping start entries => do
    let parts ← (entries.filter (·.1.isMergeKey)).mapM fun e => mergedFrom (merged n) start e.2
    return parts.flatten ++ entries.filter (!·.1.isMergeKey)
  | _, _ => .ok []

/-! ### Values -/

/-- The value of a key of the mapping at a place; `=` stands for itself. -/
def keyValue (mapping : Mark) : Node → Except Fault Value
  | .word start quoted t => wordValue start (quoted || t = Text.ofString "=") t
  | key => .error (.compoundKey mapping key.start)

/-- The value of a node; the first argument bounds the depth. -/
def valueAt : Nat → Node → Except Fault Value
  | 0, _ => .error .unsupported
  | _, .word start quoted t => wordValue start quoted t
  | n + 1, .sequence _ items => return .list (← items.mapM (valueAt n))
  | n + 1, .mapping start entries => do
    let entries ← merged (n + 1) (.mapping start entries)
    return Value.ofEntries (← entries.mapM fun e => return (← keyValue start e.1, ← valueAt n e.2))

/-! ### The first fault -/

/-- What is wrong with a value, if anything is. -/
def faultOf? : Except Fault Value → Option Fault
  | .ok _ => none
  | .error f => some f

/-- What is wrong with a word; sequences and mappings are settled later. -/
def wordFault? : Node → Option Fault
  | .word start quoted t => faultOf? (wordValue start quoted t)
  | _ => none

/-- What is wrong with a node without the nodes below it, and these. -/
def ownFault? (bound : Nat) : Node → Option Fault × List Node
  | .word start quoted t => (wordFault? (.word start quoted t), [])
  | .sequence _ items => (items.findSome? wordFault?, items)
  | .mapping start entries =>
    match merged bound (.mapping start entries) with
    | .error f => (some f, [])
    | .ok entries =>
      (entries.findSome? fun e => faultOf? (keyValue start e.1) <|> wordFault? e.2,
        entries.map (·.2))

/-- The first fault of some nodes of one level and those below; the first argument
bounds the levels. -/
def firstFault? (bound : Nat) : Nat → List Node → Option Fault
  | 0, _ => none
  | n + 1, level =>
    let found := level.map (ownFault? bound)
    found.findSome? (·.1) <|>
      if found.all (·.2.isEmpty) then none else firstFault? bound n (found.flatMap (·.2))

/-- The value of a document whose depth is below the first argument. -/
def value (bound : Nat) (n : Node) : Except Fault Value :=
  (valueAt bound n).mapError fun f => (firstFault? bound bound [n]).getD f

end Node
end Yaml
end SampleShape
