/-
# Equivalence does not see order

Leaf kinds, fields and items stand in an order, and an item may stand there twice.  None
of it matters to `Shape.equiv`: a shape stays equivalent to itself when these are
rearranged, at any depth (`Rearranged`), and so either side of a comparison may be
rearranged first.

`Shape.equiv` looks at each pair of items once.  `compareKnowing` compares as one would
say it: first the kinds, then the fields one by one, then the items of each side with
those of the other, each time starting from the item at hand.  It also takes a part for
equivalent without looking when it is known to be one and the same.  Both ways of comparing
give one answer, because equivalence is symmetric and reflexive (`compareAt_eq`).

All this is for shapes that `Shape.make` accepts, part by part (`Made`), which are the
formed ones (`madeHere_iff`).
-/

import Mathlib.Logic.Relation
import SampleShape.Proofs.Construction

namespace SampleShape
namespace Shape

/-! ### Shapes that are accepted -/

/-- Whether a shape of these parts is accepted. -/
def MadeHere (s : Shape) : Prop := make (s.leaves.map Leaf.name) s.fields s.items = .ok s

/-- A shape all of whose parts are accepted. -/
abbrev Made : Shape → Prop := Everywhere MadeHere

theorem formedHere_of_checkParts {s : Shape} {leaves : List Leaf}
    (h : checkParts (s.leaves.map Leaf.name) (names (s.fields.getD []))
      (s.fields.isSome || s.items.isSome) = .ok leaves) : FormedHere s := by
  unfold checkParts at h
  dsimp only at h
  split at h
  · cases h
  split at h
  · cases h
  split at h
  · cases h
  split at h
  · cases h
  rename_i hleaves hnames hkind
  have hdistinct : s.leaves.Nodup := by
    refine List.Pairwise.of_map Leaf.name (fun l m hne heq => ?_) (not_not.1 hleaves)
    exact hne (congrArg Leaf.name heq)
  refine ⟨hdistinct, fun fs hfs => ?_, ?_⟩
  · simpa [hfs] using hnames
  · obtain ⟨leaves, fields, items⟩ := s
    cases leaves <;> cases fields <;> cases items <;>
      simp_all [kinds, Kind.all, isObject, isArray]

/-- **What is accepted is what is formed.** -/
theorem madeHere_iff {s : Shape} : MadeHere s ↔ FormedHere s := by
  constructor
  · intro h
    unfold MadeHere make at h
    cases hcheck : checkParts (s.leaves.map Leaf.name) (names (s.fields.getD []))
        (s.fields.isSome || s.items.isSome) with
    | error f => rw [hcheck] at h; cases h
    | ok leaves => exact formedHere_of_checkParts hcheck
  · intro h
    obtain ⟨leaves, fields, items⟩ := s
    unfold MadeHere make
    rw [Making.checkParts_eq_ok h]
    rfl

theorem Everywhere.formed_of_made {s : Shape} (h : s.Made) : s.Formed :=
  h.mono fun _ => madeHere_iff.1

theorem made_leaf (l : Leaf) : (leaf l).Made := by
  refine .intro ?_ nofun nofun
  cases l <;> rfl

theorem made_array {xs : List Shape} (h : ∀ x ∈ xs, x.Made) : (array xs).Made := by
  refine .intro rfl nofun ?_
  rintro _ ⟨rfl⟩
  exact h

theorem made_object {fs : List (Text × Shape)} (hn : (names fs).Nodup)
    (h : ∀ f ∈ fs, f.2.Made) : (object fs).Made := by
  refine .intro (madeHere_iff.2 ⟨List.Pairwise.nil, ?_, List.cons_ne_nil _ _⟩) ?_ nofun
  all_goals rintro _ ⟨rfl⟩
  · exact hn
  · exact h

theorem made_singleItem {s : Shape} (h : s.Made) : (array [s]).Made :=
  made_array (List.forall_mem_singleton.2 h)

theorem made_singleField {k : Text} {s : Shape} (h : s.Made) : (object [(k, s)]).Made :=
  made_object (List.pairwise_singleton _ _) (List.forall_mem_singleton.2 h)

/-! ### Comparing from both sides -/

/-- Whether fields that both sides have agree by name, as `same` compares shapes. -/
def fieldsMatch (same : Shape → Shape → Bool) :
    Option (List (Text × Shape)) → Option (List (Text × Shape)) → Bool
  | some fs, some gs => sameNames fs gs && fs.all fun f => (field? f.1 gs).any (same f.2)
  | _, _ => true

/-- Whether each item of either side has a counterpart on the other, as `same` compares
shapes, the item at hand first. -/
def itemsMatch (same : Shape → Shape → Bool) :
    Option (List Shape) → Option (List Shape) → Bool
  | some xs, some ys => (xs.all fun x => ys.any (same x)) && ys.all fun y => xs.any (same y)
  | _, _ => true

/-- Compares two shapes of depth less than the second argument; two shapes of which `known`
says that they are one are not looked at. -/
def compareAt (known : Shape → Shape → Bool) : Nat → Shape → Shape → Bool
  | 0, _, _ => true
  | n + 1, a, b => known a b ||
      (sameKinds a b && fieldsMatch (compareAt known n) a.fields b.fields &&
        itemsMatch (compareAt known n) a.items b.items)

/-- Compares two shapes, except parts that are known to be one. -/
def compareKnowing (known : Shape → Shape → Bool) (a b : Shape) : Bool :=
  compareAt known (max a.depth b.depth + 1) a b

theorem sameKinds_iff {a b : Shape} : sameKinds a b = true ↔ ∀ k, k ∈ a.kinds ↔ k ∈ b.kinds := by
  simp only [sameKinds, Kind.sameSet, Bool.and_eq_true, List.all_eq_true, decide_eq_true_eq]
  constructor
  · rintro ⟨hab, hba⟩ k
    exact ⟨hab k, hba k⟩
  · intro h
    exact ⟨fun k => (h k).1, fun k => (h k).2⟩

theorem equiv_comm {a b : Shape} (ha : a.Formed) (hb : b.Formed) : a.equiv b = b.equiv a := by
  rw [Bool.eq_iff_iff]
  exact ⟨equiv_symm hb, equiv_symm ha⟩

theorem fieldsMatch_iff {same : Shape → Shape → Bool} {a b : Shape}
    (hobj : a.isObject = b.isObject)
    (hsame : ∀ fs gs, a.fields = some fs → b.fields = some gs → ∀ f ∈ fs, ∀ g ∈ gs,
      same f.2 g.2 = f.2.equiv g.2) :
    fieldsMatch same a.fields b.fields = true ↔ FieldsAgree a.fields b.fields := by
  unfold isObject at hobj
  cases hfs : a.fields with
  | none => cases hgs : b.fields <;> simp_all [fieldsMatch, FieldsAgree]
  | some fs =>
    cases hgs : b.fields with
    | none => simp_all
    | some gs =>
      simp only [fieldsMatch, FieldsAgree, Bool.and_eq_true, sameNames_iff, List.all_eq_true,
        Option.any_eq_true]
      refine and_congr_right fun _ => forall₂_congr fun f hf => exists_congr fun t => ?_
      refine and_congr_right fun ht => ?_
      rw [hsame fs gs hfs hgs f hf (f.1, t) (mem_of_field? ht)]

theorem itemsMatch_iff {same : Shape → Shape → Bool} {a b : Shape}
    (harr : a.isArray = b.isArray)
    (hsame : ∀ xs ys, a.items = some xs → b.items = some ys → ∀ x ∈ xs, ∀ y ∈ ys,
      same x y = x.equiv y ∧ same y x = x.equiv y) :
    itemsMatch same a.items b.items = true ↔ ItemsAgree a.items b.items := by
  unfold isArray at harr
  cases hxs : a.items with
  | none => cases hys : b.items <;> simp_all [itemsMatch, ItemsAgree]
  | some xs =>
    cases hys : b.items with
    | none => simp_all
    | some ys =>
      have hpair := hsame xs ys hxs hys
      simp only [itemsMatch, ItemsAgree, Bool.and_eq_true, List.all_eq_true, List.any_eq_true]
      refine and_congr (forall₂_congr fun x hx => ?_) (forall₂_congr fun y hy => ?_)
      · exact exists_congr fun y => and_congr_right fun hy => by rw [(hpair x hx y hy).1]
      · exact exists_congr fun x => and_congr_right fun hx => by rw [(hpair x hx y hy).2]

/-- **Comparing from both sides gives the same answer,** and so does leaving out what is
known to be one and the same. -/
theorem compareAt_eq {known : Shape → Shape → Bool} (hknown : ∀ a b, known a b → a = b) :
    ∀ {n : Nat} {a b : Shape}, a.Formed → b.Formed → max a.depth b.depth < n →
      compareAt known n a b = a.equiv b
  | n + 1, a, b, ha, hb, hn => by
      by_cases hk : known a b
      · obtain rfl := hknown a b hk
        rw [compareAt, hk, equiv_refl ha, Bool.true_or]
      have hfields : ∀ fs gs, a.fields = some fs → b.fields = some gs → ∀ f ∈ fs, ∀ g ∈ gs,
          compareAt known n f.2 g.2 = f.2.equiv g.2 := by
        intro fs gs hfs hgs f hf g hg
        have h₁ := depth_lt_of_field hfs hf
        have h₂ := depth_lt_of_field hgs hg
        exact compareAt_eq hknown (ha.field hfs hf) (hb.field hgs hg) (by omega)
      have hitems : ∀ xs ys, a.items = some xs → b.items = some ys → ∀ x ∈ xs, ∀ y ∈ ys,
          compareAt known n x y = x.equiv y ∧ compareAt known n y x = x.equiv y := by
        intro xs ys hxs hys x hx y hy
        have h₁ := depth_lt_of_item hxs hx
        have h₂ := depth_lt_of_item hys hy
        have hx' := ha.item hxs hx
        have hy' := hb.item hys hy
        refine ⟨compareAt_eq hknown hx' hy' (by omega), ?_⟩
        rw [compareAt_eq hknown hy' hx' (by omega), equiv_comm hy' hx']
      have hcompare : compareAt known (n + 1) a b = true ↔ sameKinds a b = true ∧
          fieldsMatch (compareAt known n) a.fields b.fields = true ∧
            itemsMatch (compareAt known n) a.items b.items = true := by
        simp [compareAt, hk, and_assoc]
      rw [Bool.eq_iff_iff, hcompare]
      constructor
      · rintro ⟨hkinds, hf, hx⟩
        rw [sameKinds_iff] at hkinds
        have hobj : a.isObject = b.isObject := by
          have hkind := hkinds .object
          rwa [mem_kinds_iff, mem_kinds_iff, ← Bool.eq_iff_iff] at hkind
        have harr : a.isArray = b.isArray := by
          have hkind := hkinds .array
          rwa [mem_kinds_iff, mem_kinds_iff, ← Bool.eq_iff_iff] at hkind
        refine equiv_iff.2 ⟨fun l => ?_, (fieldsMatch_iff hobj hfields).1 hf,
          (itemsMatch_iff harr hitems).1 hx⟩
        simpa [mem_kinds_iff] using hkinds (.leaf l)
      · intro h
        obtain ⟨-, hf, hx⟩ := equiv_iff.1 h
        exact ⟨sameKinds_iff.2 (mem_kinds_of_equiv h),
          (fieldsMatch_iff (isObject_of_equiv h) hfields).2 hf,
          (itemsMatch_iff (isArray_of_equiv h) hitems).2 hx⟩

/-! ### Rearranging -/

/-- One step of rearranging: the leaf kinds, the fields or the items are put in another
order, an item is written twice, or a field or an item is rearranged inside. -/
inductive Rearranged : Shape → Shape → Prop
  | leaves {ls ms : List Leaf} {fields : Option (List (Text × Shape))}
      {items : Option (List Shape)} (h : ls.Perm ms) :
      Rearranged ⟨ls, fields, items⟩ ⟨ms, fields, items⟩
  | fields {leaves : List Leaf} {fs gs : List (Text × Shape)} {items : Option (List Shape)}
      (h : fs.Perm gs) : Rearranged ⟨leaves, some fs, items⟩ ⟨leaves, some gs, items⟩
  | items {leaves : List Leaf} {fields : Option (List (Text × Shape))} {xs ys : List Shape}
      (h : xs.Perm ys) : Rearranged ⟨leaves, fields, some xs⟩ ⟨leaves, fields, some ys⟩
  | twice {leaves : List Leaf} {fields : Option (List (Text × Shape))} (x : Shape)
      (xs : List Shape) :
      Rearranged ⟨leaves, fields, some (x :: xs)⟩ ⟨leaves, fields, some (x :: x :: xs)⟩
  | inField {leaves : List Leaf} {items : Option (List Shape)} (before after : List (Text × Shape))
      (name : Text) {s t : Shape} (h : Rearranged s t) :
      Rearranged ⟨leaves, some (before ++ (name, s) :: after), items⟩
        ⟨leaves, some (before ++ (name, t) :: after), items⟩
  | inItem {leaves : List Leaf} {fields : Option (List (Text × Shape))}
      (before after : List Shape) {s t : Shape} (h : Rearranged s t) :
      Rearranged ⟨leaves, fields, some (before ++ s :: after)⟩
        ⟨leaves, fields, some (before ++ t :: after)⟩

/-- Lists of the same formed shapes agree, whatever their order and repetitions. -/
theorem itemsAgree_of_mem_iff {xs ys : List Shape} (hxs : ∀ x ∈ xs, x.Formed)
    (h : ∀ x, x ∈ xs ↔ x ∈ ys) : ItemsAgree (some xs) (some ys) :=
  ⟨fun x hx => ⟨x, (h x).1 hx, equiv_refl (hxs x hx)⟩,
    fun y hy => ⟨y, (h y).2 hy, equiv_refl (hxs y ((h y).2 hy))⟩⟩

/-- **A rearranged shape is equivalent to what it was,** if it was formed. -/
theorem Rearranged.equiv {a b : Shape} (h : Rearranged a b) (ha : a.Formed) : a.equiv b := by
  induction h with
  | leaves h =>
    exact equiv_iff.2 ⟨fun _ => h.mem_iff, (equiv_iff.1 (equiv_refl ha)).2⟩
  | fields h =>
    rename_i fs gs _
    have hnames : (names fs).Perm (names gs) := h.map _
    have hnodup : (names gs).Nodup := hnames.nodup_iff.1 (ha.here.names fs rfl)
    refine equiv_iff.2 ⟨fun _ => Iff.rfl, ⟨fun _ => hnames.mem_iff, fun f hf => ?_⟩,
      (equiv_iff.1 (equiv_refl ha)).2.2⟩
    exact ⟨f.2, field?_of_mem hnodup (h.mem_iff.1 hf), equiv_refl (ha.field rfl hf)⟩
  | items h =>
    refine equiv_iff.2 ⟨fun _ => Iff.rfl, (equiv_iff.1 (equiv_refl ha)).2.1, ?_⟩
    exact itemsAgree_of_mem_iff (fun x hx => ha.item rfl hx) fun _ => h.mem_iff
  | twice x xs =>
    refine equiv_iff.2 ⟨fun _ => Iff.rfl, (equiv_iff.1 (equiv_refl ha)).2.1, ?_⟩
    exact itemsAgree_of_mem_iff (fun x hx => ha.item rfl hx) fun _ => by simp
  | inField before after name h ih =>
    rename_i s t
    have hnames : names (before ++ (name, t) :: after) = names (before ++ (name, s) :: after) := by
      simp [names]
    have hnodup : (names (before ++ (name, t) :: after)).Nodup :=
      hnames ▸ ha.here.names _ rfl
    refine equiv_iff.2 ⟨fun _ => Iff.rfl, ⟨fun _ => by rw [hnames], ?_⟩,
      (equiv_iff.1 (equiv_refl ha)).2.2⟩
    -- every field but the one named is there as it was
    have hkept : ∀ f, f ∈ before ∨ f ∈ after →
        ∃ u, field? f.1 (before ++ (name, t) :: after) = some u ∧ f.2.equiv u := by
      intro f hf
      have hold : f ∈ before ++ (name, s) :: after := by rcases hf with hf | hf <;> simp [hf]
      have hnew : f ∈ before ++ (name, t) :: after := by rcases hf with hf | hf <;> simp [hf]
      exact ⟨f.2, field?_of_mem hnodup hnew, equiv_refl (ha.field rfl hold)⟩
    have hinside : s.equiv t := ih (ha.field rfl (List.mem_append_right _ List.mem_cons_self))
    rw [List.forall_mem_append, List.forall_mem_cons]
    exact ⟨fun f hf => hkept f (Or.inl hf), ⟨t, field?_of_mem hnodup (by simp), hinside⟩,
      fun f hf => hkept f (Or.inr hf)⟩
  | inItem before after h ih =>
    rename_i s t
    have hinside : s.equiv t := ih (ha.item rfl (List.mem_append_right _ List.mem_cons_self))
    have hkept : ∀ x, x ∈ before ∨ x ∈ after → x.equiv x := by
      intro x hx
      refine equiv_refl (ha.item rfl ?_)
      rcases hx with hx | hx <;> simp [hx]
    refine equiv_iff.2 ⟨fun _ => Iff.rfl, (equiv_iff.1 (equiv_refl ha)).2.1, ?_, ?_⟩
    · rw [List.forall_mem_append, List.forall_mem_cons]
      exact ⟨fun x hx => ⟨x, by simp [hx], hkept x (Or.inl hx)⟩, ⟨t, by simp, hinside⟩,
        fun x hx => ⟨x, by simp [hx], hkept x (Or.inr hx)⟩⟩
    · rw [List.forall_mem_append, List.forall_mem_cons]
      exact ⟨fun y hy => ⟨y, by simp [hy], hkept y (Or.inl hy)⟩, ⟨s, by simp, hinside⟩,
        fun y hy => ⟨y, by simp [hy], hkept y (Or.inr hy)⟩⟩

/-- A shape equivalent to a formed one is formed, if its leaf kinds are distinct and the
fields and items that it does not share with it are well formed themselves. -/
theorem formed_of_equiv {a b : Shape} (ha : a.Formed) (hab : a.equiv b) (hleaves : b.leaves.Nodup)
    (hfields : ∀ gs, b.fields = some gs →
      a.fields = some gs ∨ (names gs).Nodup ∧ ∀ g ∈ gs, g.2.Formed)
    (hitems : ∀ ys, b.items = some ys → a.items = some ys ∨ ∀ y ∈ ys, y.Formed) : b.Formed := by
  obtain ⟨k, hk⟩ := kinds_ne_nil_iff.1 ha.here.kinds
  have hkinds : b.kinds ≠ [] := kinds_ne_nil_iff.2 ⟨k, (mem_kinds_of_equiv hab k).1 hk⟩
  refine .intro ⟨hleaves, fun gs hgs => ?_, hkinds⟩ (fun gs hgs g hg => ?_) fun ys hys y hy => ?_
  · exact (hfields gs hgs).elim (ha.here.names gs) And.left
  · exact (hfields gs hgs).elim (fun hshared => ha.field hshared hg) fun hnew => hnew.2 g hg
  · exact (hitems ys hys).elim (fun hshared => ha.item hshared hy) fun hnew => hnew y hy

/-- **Rearranging keeps shapes formed.** -/
theorem Rearranged.formed {a b : Shape} (h : Rearranged a b) (ha : a.Formed) : b.Formed := by
  induction h with
  | leaves h =>
    exact formed_of_equiv ha ((Rearranged.leaves h).equiv ha) (h.nodup_iff.1 ha.here.leaves)
      (fun _ => Or.inl) fun _ => Or.inl
  | fields h =>
    refine formed_of_equiv ha ((Rearranged.fields h).equiv ha) ha.here.leaves ?_ fun _ => Or.inl
    rintro _ ⟨rfl⟩
    have hnodup := ha.here.names _ rfl
    exact Or.inr ⟨(h.map _).nodup_iff.1 hnodup, fun f hf => ha.field rfl (h.mem_iff.2 hf)⟩
  | items h =>
    refine formed_of_equiv ha ((Rearranged.items h).equiv ha) ha.here.leaves (fun _ => Or.inl) ?_
    rintro _ ⟨rfl⟩
    exact Or.inr fun y hy => ha.item rfl (h.mem_iff.2 hy)
  | twice x xs =>
    refine formed_of_equiv ha ((Rearranged.twice x xs).equiv ha) ha.here.leaves (fun _ => Or.inl) ?_
    rintro _ ⟨rfl⟩
    exact Or.inr fun y hy => ha.item rfl (by simpa using hy)
  | inField before after name h ih =>
    rename_i s t
    refine formed_of_equiv ha ((Rearranged.inField before after name h).equiv ha) ha.here.leaves
      ?_ fun _ => Or.inl
    rintro _ ⟨rfl⟩
    have hnodup := ha.here.names _ rfl
    have hparts : ∀ f ∈ before ++ (name, s) :: after, f.2.Formed := fun f hf => ha.field rfl hf
    rw [List.forall_mem_append, List.forall_mem_cons] at hparts
    refine Or.inr ⟨by simpa [names] using hnodup, ?_⟩
    rw [List.forall_mem_append, List.forall_mem_cons]
    exact ⟨hparts.1, ih hparts.2.1, hparts.2.2⟩
  | inItem before after h ih =>
    rename_i s t
    refine formed_of_equiv ha ((Rearranged.inItem before after h).equiv ha) ha.here.leaves
      (fun _ => Or.inl) ?_
    rintro _ ⟨rfl⟩
    have hparts : ∀ x ∈ before ++ s :: after, x.Formed := fun x hx => ha.item rfl hx
    rw [List.forall_mem_append, List.forall_mem_cons] at hparts
    refine Or.inr ?_
    rw [List.forall_mem_append, List.forall_mem_cons]
    exact ⟨hparts.1, ih hparts.2.1, hparts.2.2⟩

/-- Rearranging step after step gives an equivalent shape, which is formed. -/
theorem equiv_of_reflTransGen {a b : Shape} (h : Relation.ReflTransGen Rearranged a b)
    (ha : a.Formed) : b.Formed ∧ a.equiv b := by
  induction h with
  | refl => exact ⟨ha, equiv_refl ha⟩
  | tail _ hstep ih => exact ⟨hstep.formed ih.1, equiv_trans ih.2 (hstep.equiv ih.1)⟩

/-- **The laws of equivalence,** for shapes that `Shape.make` accepts.  Comparing from both
sides gives the answer of `Shape.equiv`, also where parts known to be one and the same are
passed over; equivalence is reflexive, symmetric and transitive; and both sides may be
rearranged at any depth without changing the answer. -/
theorem equiv_laws :
    (∀ known : Shape → Shape → Bool, (∀ a b, known a b → a = b) → ∀ a b : Shape, a.Made → b.Made →
      compareKnowing known a b = a.equiv b) ∧
    (∀ a : Shape, a.Made → a.equiv a) ∧
    (∀ a b : Shape, a.Made → b.Made → a.equiv b = b.equiv a) ∧
    (∀ a b c : Shape, a.equiv b → b.equiv c → a.equiv c) ∧
    ∀ a a' b b' : Shape, a.Made → b.Made → Relation.ReflTransGen Rearranged a a' →
      Relation.ReflTransGen Rearranged b b' → a'.equiv b' = a.equiv b := by
  refine ⟨fun known hknown a b ha hb => ?_, fun a ha => ?_, fun a b ha hb => ?_, ?_, ?_⟩
  · exact compareAt_eq hknown ha.formed_of_made hb.formed_of_made (Nat.lt_succ_self _)
  · exact equiv_refl ha.formed_of_made
  · exact equiv_comm ha.formed_of_made hb.formed_of_made
  · exact fun a b c => equiv_trans
  · intro a a' b b' ha hb haa' hbb'
    obtain ⟨ha', hequiva⟩ := equiv_of_reflTransGen haa' ha.formed_of_made
    obtain ⟨hb', hequivb⟩ := equiv_of_reflTransGen hbb' hb.formed_of_made
    rw [Bool.eq_iff_iff]
    constructor
    · intro h
      exact equiv_trans (equiv_trans hequiva h) (equiv_symm hb' hequivb)
    · intro h
      exact equiv_trans (equiv_trans (equiv_symm ha' hequiva) h) hequivb

/-- A union of two leaf kinds and an object, one field of which is an array. -/
def firstOrder : Shape :=
  ⟨[.string, .null], some [("a", leaf .number), ("b", array [leaf .string])], none⟩

/-- The same with leaf kinds and fields the other way round and the item written twice. -/
def otherOrder : Shape :=
  ⟨[.null, .string], some [("b", array [leaf .string, leaf .string]), ("a", leaf .number)], none⟩

theorem made_firstOrder : firstOrder.Made := by
  refine .intro rfl ?_ nofun
  rintro _ ⟨rfl⟩
  exact List.forall_mem_cons.2 ⟨made_leaf .number,
    List.forall_mem_singleton.2 (made_singleItem (made_leaf .string))⟩

theorem rearranged_firstOrder : Relation.ReflTransGen Rearranged firstOrder otherOrder := by
  have hleaves := Relation.ReflTransGen.single (r := Rearranged) (a := firstOrder)
    (.leaves (List.Perm.swap _ _ _))
  have hfields := hleaves.tail (.fields (List.Perm.swap _ _ _))
  exact hfields.tail (.inField [] _ "b" (.twice _ _))

theorem made_otherOrder : otherOrder.Made :=
  (equiv_of_reflTransGen rearranged_firstOrder made_firstOrder.formed_of_made).1.mono fun _ =>
    madeHere_iff.2

theorem equiv_laws_firstOrder :
    firstOrder.Made ∧ otherOrder.Made ∧ Relation.ReflTransGen Rearranged firstOrder otherOrder ∧
    compareKnowing (fun _ _ => false) firstOrder otherOrder = firstOrder.equiv otherOrder ∧
    firstOrder.equiv firstOrder ∧
    firstOrder.equiv otherOrder = otherOrder.equiv firstOrder ∧
    (firstOrder.equiv otherOrder → otherOrder.equiv firstOrder → firstOrder.equiv firstOrder) ∧
    otherOrder.equiv firstOrder = firstOrder.equiv firstOrder := by
  obtain ⟨hcompare, hrefl, hsymm, htrans, hrearrange⟩ := equiv_laws
  have hfirst := made_firstOrder
  have hother := made_otherOrder
  have hnever : ∀ a b : Shape, false = true → a = b := fun _ _ h => absurd h Bool.false_ne_true
  exact ⟨hfirst, hother, rearranged_firstOrder, hcompare _ hnever _ _ hfirst hother,
    hrefl _ hfirst, hsymm _ _ hfirst hother, htrans _ _ _,
    hrearrange _ _ _ _ hfirst hfirst rearranged_firstOrder .refl⟩

end Shape
end SampleShape
