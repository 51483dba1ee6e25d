/-
# The laws of joins

What is meant by a join is that it describes what either side describes.  In the strict
reading, where the placeholder admits no value, this holds of all shapes that `Shape.make`
accepts, whatever unions, repetitions and empty arrays are in them
(`join_admits_both`).  Equivalent shapes admit the same values, so it does not matter that
one of several equivalent items stands for all of them.

A join also treats its sides alike, as long as they are folded (`Shape.Folded`).  Folded
shapes are told by the facts that they show, and a join shows what either side shows; so
whatever law holds of "either" holds of joins, up to equivalence: it does not matter in
which order shapes are joined, how they are grouped, or how often one occurs
(`equiv_joinAll`).
-/

import SampleShape.Proofs.Conformance
import SampleShape.Proofs.Folding
import SampleShape.Proofs.Rearrangement

namespace SampleShape
namespace Shape

/-! ### Joins of folded shapes -/

section Folded

variable {a a' b b' c : Shape}

theorem equiv_join_comm (ha : a.Folded) (hb : b.Folded) : (a.join b).equiv (b.join a) := by
  refine equiv_of_shows (folded_join ha hb) (folded_join hb ha) fun f => ?_
  rw [shows_join, shows_join, or_comm]

theorem equiv_join_assoc (ha : a.Folded) (hb : b.Folded) (hc : c.Folded) :
    ((a.join b).join c).equiv (a.join (b.join c)) := by
  have hleft := folded_join (folded_join ha hb) hc
  have hright := folded_join ha (folded_join hb hc)
  refine equiv_of_shows hleft hright fun f => ?_
  rw [shows_join, shows_join, shows_join, shows_join, or_assoc]

theorem equiv_join_self (ha : a.Folded) : (a.join a).equiv a := by
  refine equiv_of_shows (folded_join ha ha) ha fun f => ?_
  rw [shows_join, or_self]

/-- **A join of folded shapes respects equivalence.** -/
theorem equiv_join_congr (ha : a.Folded) (ha' : a'.Folded) (hb : b.Folded) (hb' : b'.Folded)
    (haa' : a.equiv a') (hbb' : b.equiv b') : (a.join b).equiv (a'.join b') := by
  refine equiv_of_shows (folded_join ha hb) (folded_join ha' hb') fun f => ?_
  rw [shows_join, shows_join, shows_congr haa', shows_congr hbb']

/-- **The join of many folded shapes depends only on which shapes occur,** not on their
order and not on how often they do. -/
theorem equiv_joinAll {s t : Shape} {ss ts : List Shape} (hs : ∀ x ∈ s :: ss, x.Folded)
    (hmem : ∀ x, x ∈ s :: ss ↔ x ∈ t :: ts) : (joinAll s ss).equiv (joinAll t ts) := by
  have hfolded : ∀ {u : Shape} {us : List Shape}, (∀ x ∈ u :: us, x.Folded) →
      (joinAll u us).Folded := by
    intro u us hu
    rw [List.forall_mem_cons] at hu
    exact joinAll_of_forall (fun _ _ => folded_join) hu.1 hu.2
  have ht : ∀ x ∈ t :: ts, x.Folded := fun x hx => hs x ((hmem x).2 hx)
  refine equiv_of_shows (hfolded hs) (hfolded ht) fun f => ?_
  rw [joinAll_iff (P := Shows f) fun x y => shows_join x y f,
    joinAll_iff (P := Shows f) fun x y => shows_join x y f]
  exact exists_congr fun x => by rw [hmem]

end Folded

/-- **Joining is a join on folded shapes.**  The join of folded shapes is folded, and up to
equivalence it is commutative, associative and idempotent and respects equivalence.  So the
join of a nonempty list of folded shapes is the same, up to equivalence, for every list that
has the same members, in whatever order and however often. -/
theorem join_laws_of_folded :
    (∀ a b : Shape, a.Folded → b.Folded → (a.join b).Folded) ∧
    (∀ a b : Shape, a.Folded → b.Folded → (a.join b).equiv (b.join a)) ∧
    (∀ a b c : Shape, a.Folded → b.Folded → c.Folded →
      ((a.join b).join c).equiv (a.join (b.join c))) ∧
    (∀ a : Shape, a.Folded → (a.join a).equiv a) ∧
    (∀ a a' b b' : Shape, a.Folded → a'.Folded → b.Folded → b'.Folded →
      a.equiv a' → b.equiv b' → (a.join b).equiv (a'.join b')) ∧
    ∀ (s t : Shape) (ss ts : List Shape), (∀ x ∈ s :: ss, x.Folded) →
      (∀ x, x ∈ s :: ss ↔ x ∈ t :: ts) → (joinAll s ss).equiv (joinAll t ts) := by
  refine ⟨fun a b ha hb => ?_, fun a b ha hb => ?_, fun a b c ha hb hc => ?_, fun a ha => ?_,
    fun a a' b b' ha ha' hb hb' => ?_, fun s t ss ts hs => ?_⟩
  · exact folded_join ha hb
  · exact equiv_join_comm ha hb
  · exact equiv_join_assoc ha hb hc
  · exact equiv_join_self ha
  · exact equiv_join_congr ha ha' hb hb'
  · exact equiv_joinAll hs

/-! ### Folded shapes to hand -/

/-- An object with a single field, which is a leaf. -/
theorem folded_singleton (k : Text) (l : Leaf) : (object [(k, leaf l)]).Folded :=
  folded_object (List.pairwise_singleton _ _) (List.forall_mem_singleton.2 (folded_leaf l))

/-- Arrays of numbers and of objects with a field `a`. -/
def numbersOrObjects : Shape := array [leaf .number, object [("a", leaf .number)]]

/-- The same with the items the other way round. -/
def objectsOrNumbers : Shape := array [object [("a", leaf .number)], leaf .number]

/-- Arrays of objects with a field `b`. -/
def otherObjects : Shape := array [object [("b", leaf .string)]]

/-- Arrays that were all empty. -/
def emptyArrays : Shape := array [unknown]

theorem folded_numbersOrObjects : numbersOrObjects.Folded := by
  refine folded_array (List.cons_ne_nil _ _) (by decide) (fun c => by cases c <;> decide) ?_ ?_
  · simp [unknown, leaf, object]
  · exact List.forall_mem_cons.2 ⟨folded_leaf _, List.forall_mem_singleton.2 (folded_singleton _ _)⟩

theorem folded_objectsOrNumbers : objectsOrNumbers.Folded := by
  refine folded_array (List.cons_ne_nil _ _) (by decide) (fun c => by cases c <;> decide) ?_ ?_
  · simp [unknown, leaf, object]
  · exact List.forall_mem_cons.2 ⟨folded_singleton _ _, List.forall_mem_singleton.2 (folded_leaf _)⟩

theorem folded_otherObjects : otherObjects.Folded := folded_singleItem (folded_singleton _ _)

theorem folded_emptyArrays : emptyArrays.Folded := folded_singleItem (folded_leaf .unknown)

theorem join_laws_of_folded_numbersOrObjects :
    numbersOrObjects.Folded ∧ objectsOrNumbers.Folded ∧ otherObjects.Folded ∧ emptyArrays.Folded ∧
    numbersOrObjects.equiv objectsOrNumbers ∧
    (numbersOrObjects.join otherObjects).Folded ∧
    (numbersOrObjects.join otherObjects).equiv (otherObjects.join numbersOrObjects) ∧
    ((numbersOrObjects.join otherObjects).join emptyArrays).equiv
      (numbersOrObjects.join (otherObjects.join emptyArrays)) ∧
    (otherObjects.join otherObjects).equiv otherObjects ∧
    (numbersOrObjects.join otherObjects).equiv (objectsOrNumbers.join otherObjects) ∧
    (joinAll numbersOrObjects [otherObjects, emptyArrays]).equiv
      (joinAll emptyArrays [otherObjects, numbersOrObjects, otherObjects]) := by
  obtain ⟨hfolded, hcomm, hassoc, hself, hcongr, hall⟩ := join_laws_of_folded
  have ha := folded_numbersOrObjects
  have ha' := folded_objectsOrNumbers
  have hb := folded_otherObjects
  have hc := folded_emptyArrays
  have hequiv : numbersOrObjects.equiv objectsOrNumbers := by decide
  refine ⟨ha, ha', hb, hc, hequiv, hfolded _ _ ha hb, hcomm _ _ ha hb, hassoc _ _ _ ha hb hc,
    hself _ hb, hcongr _ _ _ _ ha ha' hb hb hequiv (equiv_refl hb.valid.formed), ?_⟩
  refine hall _ _ _ _ ?_ fun x => by simp only [List.mem_cons, List.not_mem_nil]; tauto
  rw [List.forall_mem_cons, List.forall_mem_cons, List.forall_mem_singleton]
  exact ⟨ha, hb, hc⟩

/-! ### All shapes that are made -/

/-- **A join admits what both sides admit,** for all shapes that `Shape.make` accepts and in
the reading in which the placeholder admits no value.  The join is returned, also when each
shape on the way is checked; a value that conforms to either side conforms to it; and shapes
that compare as equivalent admit the same values. -/
theorem join_admits_both {a b : Shape} (ha : a.Made) (hb : b.Made) :
    Sketch.join (.whole a) (.whole b) = .ok (.whole (a.join b)) ∧
    Making.join a b = .ok (a.join b) ∧
    (∀ v : Value, v.Conforms False a ∨ v.Conforms False b → v.Conforms False (a.join b)) ∧
    (a.equiv b → ∀ v : Value, v.Conforms False a ↔ v.Conforms False b) := by
  have ha' := ha.formed_of_made
  have hb' := hb.formed_of_made
  exact ⟨Sketch.join_whole ha' hb', Making.join_eq_ok ha' hb', fun v => Value.conforms_join,
    fun h v => Value.conforms_congr h⟩

/-- Texts, or objects with a field `a`. -/
def textOrObject : Shape := ⟨[.string], some [("a", leaf .number)], none⟩

/-- Null, or arrays of texts and objects, where the shape of a text is listed twice. -/
def repeatedItems : Shape := ⟨[.null], none, some [leaf .string, textOrObject, leaf .string]⟩

/-- The same with each item once. -/
def singleItems : Shape := ⟨[.null], none, some [textOrObject, leaf .string]⟩

/-- Objects without fields, or arrays without items. -/
def bareContainers : Shape := ⟨[], some [], some []⟩

/-- An array of a text and an object. -/
def textAndObject : Value := .sequence false [.text "x", .mapping [(.text "a", .integer 1)]]

theorem made_textOrObject : textOrObject.Made := by
  refine .intro rfl ?_ nofun
  rintro _ ⟨rfl⟩
  exact List.forall_mem_singleton.2 (made_leaf .number)

theorem made_repeatedItems : repeatedItems.Made := by
  refine .intro rfl nofun ?_
  rintro _ ⟨rfl⟩
  rw [List.forall_mem_cons, List.forall_mem_cons, List.forall_mem_singleton]
  exact ⟨made_leaf .string, made_textOrObject, made_leaf .string⟩

theorem made_singleItems : singleItems.Made := by
  refine .intro rfl nofun ?_
  rintro _ ⟨rfl⟩
  exact List.forall_mem_cons.2 ⟨made_textOrObject, List.forall_mem_singleton.2 (made_leaf .string)⟩

theorem made_bareContainers : bareContainers.Made := by
  refine .intro rfl ?_ ?_
  all_goals
    rintro _ ⟨rfl⟩ _ h
    cases h

theorem conforms_textAndObject : textAndObject.Conforms False repeatedItems := by
  have hobject : (Value.mapping [(.text "a", .integer 1)]).Conforms False textOrObject :=
    Or.inr ⟨_, rfl, ⟨⟨leaf .number, rfl, Or.inr ⟨.number, rfl, by decide⟩⟩, trivial⟩, by
      intro k t ht _ hmiss
      have hk := mem_names_of_field? ht
      simp_all [names, Value.find?]⟩
  refine Value.conforms_sequence_iff.2 (Or.inr ⟨_, rfl, ?_⟩)
  rw [List.forall_mem_cons, List.forall_mem_singleton]
  exact ⟨⟨leaf .string, List.mem_cons_self, Or.inr ⟨.string, rfl, by decide⟩⟩,
    textOrObject, List.mem_cons_of_mem _ List.mem_cons_self, hobject⟩

theorem join_admits_both_repeatedItems :
    repeatedItems.Made ∧ bareContainers.Made ∧ singleItems.Made ∧
    textAndObject.Conforms False repeatedItems ∧
    Making.join repeatedItems bareContainers = .ok (repeatedItems.join bareContainers) ∧
    textAndObject.Conforms False (repeatedItems.join bareContainers) ∧
    repeatedItems.equiv singleItems ∧
    (textAndObject.Conforms False repeatedItems ↔ textAndObject.Conforms False singleItems) := by
  obtain ⟨-, hjoin, hadmits, -⟩ := join_admits_both made_repeatedItems made_bareContainers
  obtain ⟨-, -, -, hequiv⟩ := join_admits_both made_repeatedItems made_singleItems
  have hsame : repeatedItems.equiv singleItems := by decide
  exact ⟨made_repeatedItems, made_bareContainers, made_singleItems, conforms_textAndObject, hjoin,
    hadmits _ (Or.inl conforms_textAndObject), hsame, hequiv hsame _⟩

end Shape
end SampleShape
