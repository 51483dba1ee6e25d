/-
# Which settings are accepted

A mapping is accepted as a record exactly if each field is: the value that it gives for the
field passes the field's check, or it gives none and the field has a default
(`Style.check_eq_ok_iff`, `Config.check_eq_ok_iff`).  The order of its entries does not matter,
as long as no key occurs twice (`find?_of_perm`).

A style that is written out as a mapping is read back as it was, provided that its name is one
that is accepted (`Style.check_toValue`); the other fields take any text.
-/

import SampleShape.Config

namespace SampleShape

/-! ### Entries by name -/

namespace Value

variable {entries entries' : List (Value × Value)} {name : Text} {v : Value}

theorem find?_eq_some_iff (h : (entries.map Prod.fst).Nodup) :
    find? name entries = some v ↔ (.text name, v) ∈ entries := by
  induction entries with
  | nil => simp [find?]
  | cons e rest ih =>
    obtain ⟨k, w⟩ := e
    rw [List.map_cons, List.nodup_cons] at h
    have ih := ih h.2
    -- a further entry under the key of the first one would repeat the key
    have hother : ∀ u, (k, u) ∉ rest := fun u hu => h.1 (List.mem_map.2 ⟨(k, u), hu, rfl⟩)
    rw [List.mem_cons, Prod.mk.injEq]
    cases k with
    | text key =>
      rw [find?, text.injEq]
      by_cases hkey : key = name
      · subst hkey
        simp [hother v, eq_comm]
      · simp [hkey, Ne.symm hkey, ih]
    | _ => simp [find?, ih]

theorem nodup_text (names : List Text) (h : names.Nodup) : (names.map Value.text).Nodup :=
  List.Pairwise.map _ (fun _ _ hne heq => hne (Value.text.inj heq)) h

theorem find?_of_perm (hperm : entries.Perm entries') (h : (entries'.map Prod.fst).Nodup)
    (name : Text) : find? name entries = find? name entries' := by
  have h' : (entries.map Prod.fst).Nodup := (hperm.map Prod.fst).nodup_iff.2 h
  refine Option.ext fun v => ?_
  rw [find?_eq_some_iff h', find?_eq_some_iff h, hperm.mem_iff]

end Value

/-! ### Fields -/

theorem mapError_eq_ok_iff {ε ε' α : Type} {f : ε → ε'} {x : Except ε α} {a : α} :
    x.mapError f = .ok a ↔ x = .ok a := by
  cases x with
  | error e => exact ⟨nofun, nofun⟩
  | ok b =>
    constructor <;>
    · rintro ⟨⟩
      rfl

theorem toOption_mapError {ε ε' α : Type} (f : ε → ε') (x : Except ε α) :
    (x.mapError f).toOption = x.toOption := by
  cases x <;> rfl

namespace Checked

theorem field_eq_ok_iff {α : Type} {entries : List (Value × Value)} {name : Text}
    {otherwise : Checked α} {check : Value → Checked α} {a : α} :
    field entries name otherwise check = .ok a ↔
      (Value.find? name entries).elim otherwise check = .ok a := by
  rw [field, under, mapError_eq_ok_iff]
  cases Value.find? name entries <;> rfl

theorem typeName_text_eq_ok_iff {t u : Text} :
    typeName (.text t) = .ok u ↔ isTypeName t = true ∧ u = t := by
  show (if isTypeName t then Except.ok t else fail (.badTypeName t)) = Except.ok u ↔ _
  by_cases h : isTypeName t <;> simp [h, fail, eq_comm]

end Checked

namespace Style

variable {entries : List (Value × Value)} {style : Style}

/-- **A style is accepted field by field.** -/
theorem check_eq_ok_iff : check (.mapping entries) = .ok style ↔
    (Value.find? "type_name" entries).elim (.ok (({} : Style).typeName)) Checked.typeName =
      .ok style.typeName ∧
    (Value.find? "export" entries).elim (.ok (({} : Style).exported)) Checked.boolean =
      .ok style.exported ∧
    (Value.find? "indent" entries).elim (.ok (({} : Style).indent)) Checked.text =
      .ok style.indent ∧
    (Value.find? "property_separator" entries).elim (.ok (({} : Style).separator))
      Checked.text = .ok style.separator ∧
    (Value.find? "unknown_marker" entries).elim (.ok (({} : Style).unknownMarker))
      Checked.text = .ok style.unknownMarker := by
  simp only [← Checked.field_eq_ok_iff]
  obtain ⟨typeName, exported, indent, separator, unknownMarker⟩ := style
  unfold check
  dsimp only
  split
  · rename_i h₁ h₂ h₃ h₄ h₅
    simp [h₁, h₂, h₃, h₄, h₅]
  · rename_i h
    refine ⟨nofun, ?_⟩
    rintro ⟨h₁, h₂, h₃, h₄, h₅⟩
    exact (h _ _ _ _ _ h₁ h₂ h₃ h₄ h₅).elim

theorem ofValue_eq_ok_iff {v : Value} : ofValue v = .ok style ↔ check v = .ok style :=
  mapError_eq_ok_iff

/-- A style that is given by its name and whether it is exported. -/
theorem check_named_eq_ok_iff {name : Text} {exported : Bool}
    (h : entries.Perm [(.text "type_name", .text name), (.text "export", .boolean exported)]) :
    check (.mapping entries) = .ok style ↔
      Checked.isTypeName name = true ∧ style = { typeName := name, exported } := by
  have hfind := Value.find?_of_perm h (Value.nodup_text ["type_name", "export"] (by decide))
  have htypeName : Value.find? "type_name" entries = some (.text name) := hfind _
  have hexported : Value.find? "export" entries = some (.boolean exported) := hfind _
  have hindent : Value.find? "indent" entries = none := hfind _
  have hseparator : Value.find? "property_separator" entries = none := hfind _
  have hunknown : Value.find? "unknown_marker" entries = none := hfind _
  rw [check_eq_ok_iff, htypeName, hexported, hindent, hseparator, hunknown]
  obtain ⟨typeName', exported', indent', separator', unknownMarker'⟩ := style
  simp only [Option.elim, Checked.typeName_text_eq_ok_iff, Checked.boolean, Except.ok.injEq,
    mk.injEq]
  constructor
  · rintro ⟨⟨hname, rfl⟩, rfl, rfl, rfl, rfl⟩
    exact ⟨hname, rfl, rfl, rfl, rfl, rfl⟩
  · rintro ⟨hname, rfl, rfl, rfl, rfl, rfl⟩
    exact ⟨⟨hname, rfl⟩, rfl, rfl, rfl, rfl⟩

/-- **A style that is written out is read back,** if its name is one that is accepted. -/
theorem check_toValue (h : Checked.isTypeName style.typeName = true) :
    check style.toValue = .ok style :=
  check_eq_ok_iff.2 ⟨Checked.typeName_text_eq_ok_iff.2 ⟨h, rfl⟩, rfl, rfl, rfl, rfl⟩

end Style

namespace Config

variable {entries : List (Value × Value)} {config : Config}

/-- **A configuration is accepted field by field.** -/
theorem check_eq_ok_iff : check (.mapping entries) = .ok config ↔
    (Value.find? "input_path" entries).elim (Checked.fail .missing) Checked.text =
      .ok config.inputPath ∧
    (Value.find? "output_path" entries).elim (Checked.fail .missing) Checked.text =
      .ok config.outputPath ∧
    (Value.find? "render" entries).elim (.ok {}) Style.check = .ok config.style ∧
    (Value.find? "log_level" entries).elim (.ok .info) Checked.level = .ok config.level := by
  simp only [← Checked.field_eq_ok_iff]
  obtain ⟨inputPath, outputPath, style, level⟩ := config
  unfold check
  dsimp only
  split
  · rename_i h₁ h₂ h₃ h₄
    simp [h₁, h₂, h₃, h₄]
  · rename_i h
    refine ⟨nofun, ?_⟩
    rintro ⟨h₁, h₂, h₃, h₄⟩
    exact (h _ _ _ _ h₁ h₂ h₃ h₄).elim

theorem ofValue_eq_ok_iff {v : Value} : ofValue v = .ok config ↔ check v = .ok config :=
  mapError_eq_ok_iff

/-- What is accepted as a configuration is not empty. -/
theorem isGiven_of_ofValue {v : Value} (h : ofValue v = .ok config) : v.isGiven = true := by
  rw [ofValue_eq_ok_iff] at h
  cases v with
  | mapping entries =>
    cases entries with
    | nil => cases (check_eq_ok_iff.1 h).1
    | cons e rest => rfl
  | _ => cases h

/-- A configuration that is given by its paths and its style. -/
theorem check_paths_eq_ok_iff {input output : Text} {v : Value}
    (h : entries.Perm [(.text "input_path", .text input), (.text "output_path", .text output),
      (.text "render", v)]) :
    check (.mapping entries) = .ok config ↔ ∃ style, Style.check v = .ok style ∧
      config = { inputPath := input, outputPath := output, style } := by
  have hfind := Value.find?_of_perm h
    (Value.nodup_text ["input_path", "output_path", "render"] (by decide))
  have hinput : Value.find? "input_path" entries = some (.text input) := hfind _
  have houtput : Value.find? "output_path" entries = some (.text output) := hfind _
  have hrender : Value.find? "render" entries = some v := hfind _
  have hlevel : Value.find? "log_level" entries = none := hfind _
  rw [check_eq_ok_iff, hinput, houtput, hrender, hlevel]
  obtain ⟨input', output', style', level'⟩ := config
  simp only [Option.elim, Checked.text, Except.ok.injEq, mk.injEq]
  constructor
  · rintro ⟨rfl, rfl, hstyle, rfl⟩
    exact ⟨style', hstyle, rfl, rfl, rfl, rfl⟩
  · rintro ⟨style, hstyle, rfl, rfl, rfl, rfl⟩
    exact ⟨rfl, rfl, hstyle, rfl⟩

end Config
end SampleShape
