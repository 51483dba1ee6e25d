/-
# The head of a declaration

A declaration starts with `type`, or `export type`, and the name of the type.  A name that is
accepted is a word of letters, digits, `_` and `$` that starts with no digit, or such a word
with a line feed behind it (`isTypeName_iff`).  The name is written as it was given.  So the
head of a declaration holds a word and nothing else exactly if the name does not end in a line
feed (`declaration_head`); the line feed that is let through ends up between the name and the
`=` (`head_broken_by_lineFeed`).
-/

import Mathlib.Data.List.TakeWhile
import SampleShape.Proofs.Settings

namespace SampleShape

/-- The characters of words: letters, digits, `_` and `$`. -/
def CodePoint.InWord (c : CodePoint) : Prop :=
  c.isLetter = true ∨ c.isDigit = true ∨ c.is '_' = true ∨ c.is '$' = true

/-- Whether a text is a word that can name a type. -/
structure Text.IsWord (t : Text) : Prop where
  nonempty : t ≠ []
  inWord : ∀ c ∈ t, c.InWord
  start : ∀ c, t.head? = some c → c.isDigit = false

/-- Whether the declaration of a shape is the one under a given name: the keywords, the name,
the type and a semicolon. -/
def Shape.DeclaredAs (style : Style) (s : Shape) (name : Text) : Prop :=
  s.declaration style = (if style.exported then Text.ofString "export " else []) ++
    Text.ofString "type " ++ name ++ Text.ofString " = " ++ s.render style 1 ++ Text.ofString ";"

/-! ### Names that are accepted -/

namespace Checked

theorem isNamePart_iff {c : CodePoint} : isNamePart c = true ↔ c.InWord := by
  simp only [isNamePart, isNameStart, CodePoint.InWord, Bool.or_eq_true, or_assoc]
  exact or_congr_right (or_assoc.symm.trans or_comm)

theorem isNameStart_iff {c : CodePoint} :
    isNameStart c = true ↔ c.InWord ∧ c.isDigit = false := by
  -- no digit is a letter or one of the two signs
  have hdigit : c.isDigit = true → c.isLetter = false ∧ c.is '_' = false ∧ c.is '$' = false := by
    simp only [CodePoint.isDigit, CodePoint.isLetter, CodePoint.is, Bool.and_eq_true,
      decide_eq_true_eq, Bool.or_eq_false_iff, Bool.and_eq_false_iff, decide_eq_false_iff_not,
      beq_eq_false_iff_ne]
    intro h
    have h₁ : '_'.toNat = 0x5F := rfl
    have h₂ : '$'.toNat = 0x24 := rfl
    omega
  simp only [isNameStart, CodePoint.InWord, Bool.or_eq_true]
  cases hd : c.isDigit with
  | false => simp [or_assoc]
  | true =>
    obtain ⟨h₁, h₂, h₃⟩ := hdigit hd
    simp [h₁, h₂, h₃]

theorem isNamePart_lineFeed : isNamePart (.ofChar '\n') = false := by decide

/-- **A name is accepted if it is a word,** also with a line feed behind it. -/
theorem isTypeName_iff {t : Text} :
    isTypeName t = true ↔ ∃ word : Text, word.IsWord ∧ (t = word ∨ t = word ++ [.ofChar '\n']) := by
  constructor
  · intro h
    cases t with
    | nil => cases h
    | cons c rest =>
      simp only [isTypeName, Bool.and_eq_true, Bool.or_eq_true, List.isEmpty_iff, beq_iff_eq] at h
      obtain ⟨hstart, hafter⟩ := h
      have hc := isNameStart_iff.1 hstart
      refine ⟨c :: rest.takeWhile isNamePart, ⟨List.cons_ne_nil _ _, ?_, ?_⟩, ?_⟩
      · refine List.forall_mem_cons.2 ⟨hc.1, fun d hd => isNamePart_iff.1 ?_⟩
        exact List.mem_takeWhile_imp hd
      · rintro _ ⟨rfl⟩
        exact hc.2
      · have hsplit := List.takeWhile_append_dropWhile (p := isNamePart) (l := rest)
        rcases hafter with hafter | hafter
        · rw [hafter, List.append_nil] at hsplit
          exact Or.inl (by rw [hsplit])
        · rw [hafter] at hsplit
          exact Or.inr (congrArg (c :: ·) hsplit.symm)
  · rintro ⟨word, ⟨hnonempty, hword, hstart⟩, ht⟩
    obtain ⟨c, w, rfl⟩ := List.exists_cons_of_ne_nil hnonempty
    rw [List.forall_mem_cons] at hword
    have hc : isNameStart c = true := isNameStart_iff.2 ⟨hword.1, hstart c rfl⟩
    have hw : ∀ d ∈ w, isNamePart d = true := fun d hd => isNamePart_iff.2 (hword.2 d hd)
    rcases ht with rfl | rfl
    · have hnone : w.dropWhile isNamePart = [] := List.dropWhile_eq_nil_iff.2 hw
      simp [isTypeName, hc, hnone]
    · have hone : (w ++ [CodePoint.ofChar '\n']).dropWhile isNamePart = [.ofChar '\n'] := by
        rw [List.dropWhile_append_of_pos hw, List.dropWhile_cons_of_neg (by decide)]
      rw [List.cons_append, isTypeName, hc, hone]
      rfl

/-- A name that is accepted is a word exactly if it does not end in a line feed. -/
theorem isWord_iff_of_isTypeName {t : Text} (h : isTypeName t = true) :
    t.IsWord ↔ t.getLast? ≠ some (.ofChar '\n') := by
  constructor
  · intro hword hlast
    have hmem := isNamePart_iff.2 (hword.inWord _ (List.mem_of_getLast? hlast))
    rw [isNamePart_lineFeed] at hmem
    cases hmem
  · intro hlast
    obtain ⟨word, hword, rfl | rfl⟩ := isTypeName_iff.1 h
    · exact hword
    · exact absurd (List.getLast?_concat) hlast

end Checked

/-! ### The head -/

namespace Shape

theorem declaredAs_iff {style : Style} {s : Shape} {name : Text} :
    s.DeclaredAs style name ↔ name = style.typeName := by
  have hself : s.declaration style = (if style.exported then Text.ofString "export " else []) ++
      Text.ofString "type " ++ style.typeName ++ Text.ofString " = " ++ s.render style 1 ++
        Text.ofString ";" := by
    simp [declaration, Text.concat]
  rw [DeclaredAs, hself, List.append_cancel_right_eq, List.append_cancel_right_eq,
    List.append_cancel_right_eq, List.append_cancel_left_eq]
  exact eq_comm

/-- A name that is accepted is the name of the style. -/
theorem typeName_of_ofValue {entries : List (Value × Value)} {name : Text} {style : Style}
    (hname : Value.find? "type_name" entries = some (.text name))
    (h : Style.ofValue (.mapping entries) = .ok style) :
    Checked.isTypeName name = true ∧ style.typeName = name := by
  have hfield := (Style.check_eq_ok_iff.1 (Style.ofValue_eq_ok_iff.1 h)).1
  rw [hname] at hfield
  exact Checked.typeName_text_eq_ok_iff.1 hfield

/-- A name that is given alone is accepted if it passes its check. -/
theorem exists_ofValue_iff {name : Text} :
    (∃ style, Style.ofValue (.mapping [(.text "type_name", .text name)]) = .ok style) ↔
      Checked.isTypeName name = true := by
  constructor
  · rintro ⟨style, h⟩
    exact (typeName_of_ofValue rfl h).1
  · intro h
    refine ⟨{ typeName := name }, Style.ofValue_eq_ok_iff.2 (Style.check_eq_ok_iff.2 ?_)⟩
    exact ⟨Checked.typeName_text_eq_ok_iff.2 ⟨h, rfl⟩, rfl, rfl, rfl, rfl⟩

/-- **The head of a declaration.**  A name is accepted if it is a word, or a word with a line
feed behind it, and stands in every declaration as it was given.  So what stands there is a
word exactly if the name does not end in a line feed. -/
theorem declaration_head (name : Text) :
    ((∃ style, Style.ofValue (.mapping [(.text "type_name", .text name)]) = .ok style) ↔
      ∃ word : Text, word.IsWord ∧ (name = word ∨ name = word ++ [.ofChar '\n'])) ∧
    ∀ (entries : List (Value × Value)) (style : Style),
      Value.find? "type_name" entries = some (.text name) →
      Style.ofValue (.mapping entries) = .ok style → ∀ s : Shape,
        s.DeclaredAs style name ∧
        ((∃ word : Text, word.IsWord ∧ s.DeclaredAs style word) ↔
          name.getLast? ≠ some (.ofChar '\n')) := by
  refine ⟨exists_ofValue_iff.trans Checked.isTypeName_iff, ?_⟩
  intro entries style hname haccepted s
  obtain ⟨htypeName, hstyle⟩ := typeName_of_ofValue hname haccepted
  simp only [declaredAs_iff, hstyle, exists_eq_right, true_and]
  exact Checked.isWord_iff_of_isTypeName htypeName

theorem declaration_head_unexported :
    let entries : List (Value × Value) :=
      [(.text "export", .boolean false), (.text "type_name", .text "$a_1")]
    let style : Style := { typeName := "$a_1", exported := false }
    Value.find? "type_name" entries = some (.text "$a_1") ∧
    Style.ofValue (.mapping entries) = .ok style ∧
    ∃ word : Text, word.IsWord ∧ (leaf .number).DeclaredAs style word := by
  intro entries style
  have haccepted : Style.ofValue (.mapping entries) = .ok style := rfl
  have hhead := (declaration_head "$a_1").2 entries style rfl haccepted (leaf .number)
  exact ⟨rfl, haccepted, hhead.2.2 (by decide)⟩

/-- **A line feed behind the name is let through** and breaks the head: no word stands where the
name belongs. -/
theorem head_broken_by_lineFeed :
    ∃ style : Style, Style.ofValue (.mapping [(.text "type_name", .text "Data\n")]) = .ok style ∧
      (leaf .number).declaration style = Text.ofString "export type Data\n = number;" ∧
      ∀ word : Text, word.IsWord → ¬ (leaf .number).DeclaredAs style word := by
  refine ⟨{ typeName := "Data\n" }, rfl, by decide, fun word hword hdeclared => ?_⟩
  rw [declaredAs_iff.1 hdeclared] at hword
  exact (Checked.isWord_iff_of_isTypeName (by decide)).1 hword (by decide)

end Shape
end SampleShape
