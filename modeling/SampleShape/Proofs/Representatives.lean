/-
# The first shape of each class

`dedupe` goes through a list once and compares each shape with those it has kept so far.
What it keeps can be told without that loop: the shapes at positions with no equivalent shape
before them, whether that one was kept or not (`firsts`).  The two agree because a shape that
was dropped has an equivalent one among those kept, and equivalence is transitive
(`any_dedupe`).

So each class of equivalent shapes is represented by its first member and by no other, and a
list may be thinned out at the front before it is thinned out as a whole
(`dedupe_append_dedupe`).
-/

import Mathlib.Data.List.Induction
import SampleShape.Proofs.Joineries
import SampleShape.Proofs.Rearrangement

namespace SampleShape
namespace Shape

/-- The shapes at positions with no equivalent shape before them. -/
def firsts (shapes : List Shape) : List Shape :=
  (shapes.zipIdx.filter fun p => !(shapes.take p.2).any (·.equiv p.1)).map Prod.fst

/-! ### One shape more -/

theorem dedupeOnto_append (kept xs ys : List Shape) :
    dedupeOnto kept (xs ++ ys) = dedupeOnto (dedupeOnto kept xs) ys := by
  induction xs generalizing kept with
  | nil => rfl
  | cons x xs ih =>
    rw [List.cons_append, dedupeOnto, dedupeOnto]
    split
    · exact ih kept
    · exact ih (kept ++ [x])

theorem dedupe_concat (shapes : List Shape) (s : Shape) :
    dedupe (shapes ++ [s]) =
      if (dedupe shapes).any (·.equiv s) then dedupe shapes else dedupe shapes ++ [s] := by
  rw [dedupe, dedupeOnto_append]
  rfl

/-- **A shape has an equivalent one among those kept exactly if it has one in the list.** -/
theorem any_dedupe (shapes : List Shape) (s : Shape) :
    (dedupe shapes).any (·.equiv s) = shapes.any (·.equiv s) := by
  rw [Bool.eq_iff_iff, List.any_eq_true, List.any_eq_true]
  constructor
  · rintro ⟨t, ht, hts⟩
    exact ⟨t, mem_of_mem_dedupe ht, hts⟩
  · rintro ⟨t, ht, hts⟩
    obtain ⟨u, hu, rfl | hut⟩ := exists_mem_dedupe ht
    · exact ⟨u, hu, hts⟩
    · exact ⟨u, hu, equiv_trans hut hts⟩

theorem firsts_concat (shapes : List Shape) (s : Shape) :
    firsts (shapes ++ [s]) =
      if shapes.any (·.equiv s) then firsts shapes else firsts shapes ++ [s] := by
  -- what stands before a position of the old list is the same in the longer one
  have hold : (shapes.zipIdx.filter fun p => !((shapes ++ [s]).take p.2).any (·.equiv p.1)) =
      shapes.zipIdx.filter fun p => !(shapes.take p.2).any (·.equiv p.1) := by
    refine List.filter_congr fun p hp => ?_
    have hlt : p.2 < shapes.length := by
      have h := List.snd_lt_of_mem_zipIdx hp
      omega
    rw [List.take_append_of_le_length (Nat.le_of_lt hlt)]
  rw [firsts, List.zipIdx_append, List.filter_append, hold, List.map_append]
  simp only [List.zipIdx_cons, List.zipIdx_nil, Nat.zero_add, List.filter_cons, List.filter_nil,
    List.take_left']
  cases shapes.any (·.equiv s) <;> simp [firsts]

/-- **What is kept is what comes first:** a shape with no equivalent one before it. -/
theorem dedupe_eq_firsts (shapes : List Shape) : dedupe shapes = firsts shapes := by
  induction shapes using List.reverseRecOn with
  | nil => rfl
  | append_singleton shapes s ih => rw [dedupe_concat, firsts_concat, any_dedupe, ih]

/-! ### Representatives -/

/-- **A list may be thinned out at the front first.** -/
theorem dedupe_append_dedupe (xs ys : List Shape) :
    dedupe (dedupe xs ++ ys) = dedupe (xs ++ ys) := by
  have hidem : dedupe (dedupe xs) = dedupe xs := dedupe_eq_self_iff.2 (pairwise_dedupe xs)
  calc dedupe (dedupe xs ++ ys) = dedupeOnto (dedupe (dedupe xs)) ys := dedupeOnto_append [] _ _
    _ = dedupeOnto (dedupe xs) ys := by rw [hidem]
    _ = dedupe (xs ++ ys) := (dedupeOnto_append [] xs ys).symm

/-- Among shapes that are not equivalent to each other, at most one is equivalent to a given
one. -/
theorem countP_equiv_le_one {kept : List Shape} {s : Shape} (hs : s.Formed)
    (h : kept.Pairwise fun x y => ¬ x.equiv y) : kept.countP (·.equiv s) ≤ 1 := by
  induction kept with
  | nil => simp
  | cons t rest ih =>
    rw [List.pairwise_cons] at h
    rw [List.countP_cons]
    split
    · rename_i hts
      -- a second one would be equivalent to the first
      have hnone : rest.countP (·.equiv s) = 0 := by
        rw [List.countP_eq_zero]
        intro u hu hus
        exact h.1 u hu (equiv_trans hts (equiv_symm hs hus))
      omega
    · exact ih h.2

/-- **Each shape of the list has one representative.** -/
theorem countP_equiv_dedupe {shapes : List Shape} {s : Shape} (hs : s.Formed) (h : s ∈ shapes) :
    (dedupe shapes).countP (·.equiv s) = 1 := by
  have hle := countP_equiv_le_one hs (pairwise_dedupe shapes)
  have hpos : 0 < (dedupe shapes).countP (·.equiv s) := by
    rw [List.countP_pos_iff]
    obtain ⟨t, ht, rfl | hts⟩ := exists_mem_dedupe h
    · exact ⟨t, ht, equiv_refl hs⟩
    · exact ⟨t, ht, hts⟩
  omega

/-- **The first of each class is kept,** of shapes that `Shape.make` accepts.  Comparing them as
sketches meets no gap and keeps the same shapes: those at positions with no equivalent shape
before them.  No two of them are equivalent, each shape of the list is equivalent to one of
them, and thinning out the front of a list first changes nothing.  Sketches with gaps are left
out: to compare two of them can fail, and then nothing is kept. -/
theorem dedupe_keeps_first {shapes : List Shape} (h : ∀ s ∈ shapes, s.Made) :
    Sketch.dedupe (shapes.map .whole) = .ok ((dedupe shapes).map .whole) ∧
    dedupe shapes = firsts shapes ∧
    (dedupe shapes).Pairwise (fun x y => ¬ x.equiv y ∧ ¬ y.equiv x) ∧
    (∀ s ∈ shapes, (dedupe shapes).countP (·.equiv s) = 1) ∧
    (∀ more, dedupe (dedupe shapes ++ more) = dedupe (shapes ++ more)) ∧
    dedupe (dedupe shapes) = dedupe shapes := by
  refine ⟨Sketch.dedupe_whole shapes, dedupe_eq_firsts shapes, ?_, fun s hs => ?_,
    dedupe_append_dedupe shapes, ?_⟩
  · refine (pairwise_dedupe shapes).imp_of_mem fun {x y} hx _ hxy => ⟨hxy, fun hyx => ?_⟩
    exact hxy (equiv_symm (h x (mem_of_mem_dedupe hx)).formed_of_made hyx)
  · exact countP_equiv_dedupe (h s hs).formed_of_made hs
  · exact dedupe_eq_self_iff.2 (pairwise_dedupe shapes)

/-- Two leaf kinds, and arrays of them in two orders. -/
def repeatedClasses : List Shape :=
  [array [leaf .string, leaf .number], leaf .string, array [leaf .number, leaf .string],
    leaf .string, array [leaf .number, leaf .string, leaf .number]]

theorem made_repeatedClasses : ∀ s ∈ repeatedClasses, s.Made := by
  have harray : ∀ leaves : List Leaf, (array (leaves.map leaf)).Made := by
    intro leaves
    refine made_array fun x hx => ?_
    obtain ⟨l, -, rfl⟩ := List.mem_map.1 hx
    exact made_leaf l
  intro s hs
  simp only [repeatedClasses, List.mem_cons, List.not_mem_nil, or_false] at hs
  rcases hs with rfl | rfl | rfl | rfl | rfl
  · exact harray [.string, .number]
  · exact made_leaf .string
  · exact harray [.number, .string]
  · exact made_leaf .string
  · exact harray [.number, .string, .number]

theorem dedupe_keeps_first_repeatedClasses :
    (∀ s ∈ repeatedClasses, s.Made) ∧
    Sketch.dedupe (repeatedClasses.map .whole) = .ok ((dedupe repeatedClasses).map .whole) ∧
    firsts repeatedClasses = [array [leaf .string, leaf .number], leaf .string] ∧
    dedupe repeatedClasses = firsts repeatedClasses ∧
    (∀ s ∈ repeatedClasses, (dedupe repeatedClasses).countP (·.equiv s) = 1) ∧
    dedupe (dedupe repeatedClasses ++ [leaf .null]) = dedupe (repeatedClasses ++ [leaf .null]) := by
  obtain ⟨hsketch, hfirsts, -, hcount, happend, -⟩ := dedupe_keeps_first made_repeatedClasses
  exact ⟨made_repeatedClasses, hsketch, rfl, hfirsts, hcount, happend [leaf .null]⟩

end Shape
end SampleShape
