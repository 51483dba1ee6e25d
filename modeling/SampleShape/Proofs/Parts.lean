/-
# The parts of a shape

Fields and items are shapes themselves, and a statement about a shape is mostly
proved from the same statement about these parts.  A part is less deep than the
whole (`depth_lt_of_field`, `depth_lt_of_item`), which gives induction on nesting
(`Shape.induct`, and `Shape.induct₂` for two shapes at once) and bounds the depth of a
shape by the depth of its parts (`depth_le_iff`).

`Everywhere p` says that `p` holds of a shape and of everything inside it.  Two
such properties are used throughout: a shape is *formed* when it passes the checks
under which shapes are made, and *valid* when moreover every array has item shapes,
no two of them equivalent.
-/

import SampleShape.Shape.Equiv

namespace SampleShape
namespace Shape

/-! ### Fields by name -/

@[simp] theorem field?_nil (k : Text) : field? k [] = none := rfl

theorem field?_cons (k : Text) (f : Text × Shape) (rest : List (Text × Shape)) :
    field? k (f :: rest) = if k = f.1 then some f.2 else field? k rest := by
  rw [field?, List.lookup_cons]
  by_cases h : k = f.1
  · simp [h]
  · rw [beq_false_of_ne h, if_neg h, field?]

theorem names_append (fs gs : List (Text × Shape)) : names (fs ++ gs) = names fs ++ names gs :=
  List.map_append

theorem names_map (g : Shape → Shape) (fs : List (Text × Shape)) :
    names (fs.map fun f => (f.1, g f.2)) = names fs := by
  rw [names, names, List.map_map]
  rfl

theorem hasField_iff {k : Text} {fs : List (Text × Shape)} :
    hasField k fs = true ↔ k ∈ names fs := by
  simp only [hasField, names, List.any_eq_true, beq_iff_eq, List.mem_map]

theorem field?_eq_none_iff {k : Text} {fs : List (Text × Shape)} :
    field? k fs = none ↔ k ∉ names fs := by
  rw [field?, List.lookup_eq_none_iff]
  simp only [bne_iff_ne, names, List.mem_map, not_exists, not_and]
  exact ⟨fun h f hf he => h f hf he.symm, fun h f hf he => h f hf he.symm⟩

theorem mem_names_iff {k : Text} {fs : List (Text × Shape)} :
    k ∈ names fs ↔ (field? k fs).isSome = true := by
  rw [Option.isSome_iff_ne_none, Ne, field?_eq_none_iff, Classical.not_not]

theorem mem_of_field? {k : Text} {s : Shape} {fs : List (Text × Shape)}
    (h : field? k fs = some s) : (k, s) ∈ fs := by
  obtain ⟨before, after, rfl, -⟩ := List.lookup_eq_some_iff.1 h
  exact List.mem_append_right _ List.mem_cons_self

theorem mem_names_of_field? {k : Text} {s : Shape} {fs : List (Text × Shape)}
    (h : field? k fs = some s) : k ∈ names fs :=
  List.mem_map.2 ⟨(k, s), mem_of_field? h, rfl⟩

theorem field?_of_mem {k : Text} {s : Shape} :
    ∀ {fs : List (Text × Shape)}, (names fs).Nodup → (k, s) ∈ fs → field? k fs = some s
  | f :: rest, hn, h => by
      rw [names, List.map_cons, List.nodup_cons] at hn
      rw [field?_cons]
      rcases List.mem_cons.1 h with rfl | hrest
      · simp
      · have hne : k ≠ f.1 := by
          rintro rfl
          exact hn.1 (List.mem_map.2 ⟨_, hrest, rfl⟩)
        rw [if_neg hne]
        exact field?_of_mem hn.2 hrest

/-! ### Depth of the parts -/

theorem fieldsDepth_le_iff {fs : List (Text × Shape)} {n : Nat} :
    fieldsDepth fs ≤ n ↔ ∀ f ∈ fs, f.2.depth ≤ n := by
  induction fs with
  | nil => simp [fieldsDepth]
  | cons f rest ih => rw [fieldsDepth, Nat.max_le, ih, List.forall_mem_cons]

theorem itemsDepth_le_iff {xs : List Shape} {n : Nat} :
    itemsDepth xs ≤ n ↔ ∀ x ∈ xs, x.depth ≤ n := by
  induction xs with
  | nil => simp [itemsDepth]
  | cons x rest ih => rw [itemsDepth, Nat.max_le, ih, List.forall_mem_cons]

/-- A shape is at most as deep as one more than its parts. -/
theorem depth_le_iff {s : Shape} {n : Nat} :
    s.depth ≤ n ↔ (∀ fs, s.fields = some fs → 1 + fieldsDepth fs ≤ n) ∧
      ∀ xs, s.items = some xs → 1 + itemsDepth xs ≤ n := by
  obtain ⟨leaves, fields, items⟩ := s
  cases fields with
  | none => cases items <;> simp [depth]
  | some fs =>
    cases items with
    | none => simp [depth]
    | some xs =>
      simp only [depth, Option.some.injEq, forall_eq']
      omega

theorem depth_lt_of_field {s : Shape} {fs : List (Text × Shape)} {f : Text × Shape}
    (hs : s.fields = some fs) (hf : f ∈ fs) : f.2.depth < s.depth := by
  have h := (depth_le_iff.1 (Nat.le_refl s.depth)).1 fs hs
  have hle := depth_le_fieldsDepth hf
  omega

theorem depth_lt_of_item {s : Shape} {xs : List Shape} {x : Shape}
    (hs : s.items = some xs) (hx : x ∈ xs) : x.depth < s.depth := by
  have h := (depth_le_iff.1 (Nat.le_refl s.depth)).2 xs hs
  have hle := depth_le_itemsDepth hx
  omega

/-- **Induction on nesting:** what follows for a shape from its fields and items
holds of every shape. -/
theorem induct {P : Shape → Prop}
    (step : ∀ s : Shape, (∀ fs, s.fields = some fs → ∀ f ∈ fs, P f.2) →
      (∀ xs, s.items = some xs → ∀ x ∈ xs, P x) → P s) (s : Shape) : P s :=
  step s (fun _ _ f _ => induct step f.2) fun _ _ x _ => induct step x
termination_by s.depth
decreasing_by
  · exact depth_lt_of_field ‹_› ‹_›
  · exact depth_lt_of_item ‹_› ‹_›

/-- **Induction on the nesting of two shapes:** what follows for two shapes from all pairs
less deep than the deeper of them holds of any two. -/
theorem induct₂ {P : Shape → Shape → Prop}
    (step : ∀ a b : Shape, (∀ x y : Shape, x.depth < max a.depth b.depth →
      y.depth < max a.depth b.depth → P x y) → P a b) (a b : Shape) : P a b :=
  step a b fun x y _ _ => induct₂ step x y
termination_by max a.depth b.depth
decreasing_by omega

/-! ### Properties of all parts -/

/-- Whether `p` holds of a shape and of all shapes inside it. -/
inductive Everywhere (p : Shape → Prop) : Shape → Prop
  | intro {s : Shape} (here : p s)
      (fields : ∀ fs, s.fields = some fs → ∀ f ∈ fs, Everywhere p f.2)
      (items : ∀ xs, s.items = some xs → ∀ x ∈ xs, Everywhere p x) : Everywhere p s

namespace Everywhere

variable {p q : Shape → Prop} {s : Shape}

theorem here (h : Everywhere p s) : p s := by
  cases h with
  | intro here _ _ => exact here

theorem field (h : Everywhere p s) {fs : List (Text × Shape)} (hs : s.fields = some fs)
    {f : Text × Shape} (hf : f ∈ fs) : Everywhere p f.2 := by
  cases h with
  | intro _ fields _ => exact fields fs hs f hf

theorem item (h : Everywhere p s) {xs : List Shape} (hs : s.items = some xs) {x : Shape}
    (hx : x ∈ xs) : Everywhere p x := by
  cases h with
  | intro _ _ items => exact items xs hs x hx

theorem mono (hpq : ∀ s, p s → q s) (h : Everywhere p s) : Everywhere q s := by
  induction h with
  | intro here _ _ ihf ihx => exact .intro (hpq _ here) ihf ihx

end Everywhere

/-- The checks under which shapes are made: no leaf kind twice, no field name
twice, and at least one kind. -/
structure FormedHere (s : Shape) : Prop where
  leaves : s.leaves.Nodup
  names : ∀ fs, s.fields = some fs → (names fs).Nodup
  kinds : s.kinds ≠ []

/-- A shape all of whose parts pass the checks under which shapes are made. -/
abbrev Formed : Shape → Prop := Everywhere FormedHere

/-- A shape that passes the checks and whose array, if it has one, has item shapes,
no two of them equivalent. -/
structure ValidHere (s : Shape) : Prop extends FormedHere s where
  inhabited : ∀ xs, s.items = some xs → xs ≠ []
  distinct : ∀ xs, s.items = some xs → xs.Pairwise fun x y => ¬ x.equiv y

/-- A shape all of whose parts are formed and hold each item shape once. -/
abbrev Valid : Shape → Prop := Everywhere ValidHere

theorem Everywhere.formed {s : Shape} (h : s.Valid) : s.Formed :=
  h.mono fun _ h => h.toFormedHere

end Shape
end SampleShape
