/-
# The commands agree

`validate` checks a configuration file, `run` follows one, and `infer` takes the same settings
from the words of its command line.  They come to a configuration on three ways: `validate`
checks at once what the file holds, `run` first asks whether anything is given at all, and
`infer` checks the style, writes it out as a mapping and has it checked again.

A command answers by its exit code and by the files that it leaves (`answer`).  Both depend on
the files alone, not on the journal or on run ids.  `Job.Leaves` says this of a job: whether it
returns, and what tree it leaves.  For a run with a configuration that is `Tree.ran`, and each
command is led back to it: `run` to the configuration that `validate` finds
(`leaves_work_run`), `infer` to the one that its words spell (`leaves_work_infer`).

All this holds however YAML is read, and where it cannot be read at all.
-/

import SampleShape.Command
import SampleShape.Proofs.RunEffects
import SampleShape.Proofs.Settings

namespace SampleShape

/-! ### What configuration files hold, and what runs leave -/

namespace Tree

section Loaded

variable (yaml : Option Command.YamlReader)

/-- The value that a configuration file holds. -/
def loaded (t : Tree) (path : Text) : Except Fault Value := do
  let p := Path.ofText path
  match ← (t.exists? p).mapError .file with
  | false => .error (.configNotFound path)
  | true =>
    let content ← (t.read p).mapError .file
    if p.suffix = Text.ofString ".json" then
      let document ← ((Utf8.decode content).mapError .undecodable).map (·.unifyLineBreaks false)
      (Json.read document).mapError .json
    else if p.suffix = Text.ofString ".yaml" || p.suffix = Text.ofString ".yml" then
      match yaml with
      | none => .error .yamlUnavailable
      | some read => (read p.text content).mapError .yaml
    else .error (.configFormat p.suffix)

/-- The configuration that a file holds. -/
def configured (t : Tree) (path : Text) : Except Fault Config := do
  let v ← t.loaded yaml path
  (Config.ofValue v).mapError .invalid

end Loaded

/-- Whether a run with a configuration returns, and the tree that it leaves.  Without a
configuration nothing is done. -/
def ran (t : Tree) : Option Config → Bool × Tree
  | none => (false, t)
  | some config =>
    match t.declared config with
    | .error _ => (false, t)
    | .ok (_, declaration) =>
      ((t.store (Path.ofText config.outputPath) declaration).1.isOk,
        (t.store (Path.ofText config.outputPath) declaration).2)

variable {yaml : Option Command.YamlReader}

theorem configured_of_loaded {t : Tree} {path : Text} {v : Value}
    (h : t.loaded yaml path = .ok v) :
    t.configured yaml path = (Config.ofValue v).mapError .invalid := by
  rw [configured, h]
  rfl

theorem exists?_of_read {t : Tree} {p : Path} {content : List UInt8}
    (h : t.read p = .ok content) : t.exists? p = .ok true := by
  unfold read at h
  unfold exists?
  cases hlocate : t.locate p with
  | error fault =>
    rw [hlocate] at h
    cases h
  | ok l =>
    rw [hlocate] at h
    cases hentry : t.entry? l with
    | none => simp [bind, Except.bind, hentry] at h
    | some e => simp [hentry]

/-- A JSON file is loaded as its text is read. -/
theorem loaded_of_fileText {t : Tree} {path document : Text}
    (hsuffix : (Path.ofText path).suffix = Text.ofString ".json")
    (htext : t.fileText (Path.ofText path) = .ok document) :
    t.loaded yaml path = (Json.read document).mapError .json := by
  unfold fileText at htext
  cases hread : t.read (Path.ofText path) with
  | error fault =>
    rw [hread] at htext
    cases htext
  | ok content =>
    rw [hread] at htext
    have htext : ((Utf8.decode content).mapError Fault.undecodable >>= fun decoded =>
        pure (decoded.unifyLineBreaks false)) = .ok document := htext
    cases hdecode : Utf8.decode content with
    | error fault =>
      rw [hdecode] at htext
      cases htext
    | ok decoded =>
      rw [hdecode] at htext
      cases htext
      simp only [loaded, exists?_of_read hread, hread, hsuffix, if_true]
      show (((Utf8.decode content).mapError Fault.undecodable).map (·.unifyLineBreaks false) >>=
        fun text => (Json.read text).mapError .json) = _
      rw [hdecode]
      rfl

end Tree

/-! ### Jobs by what they leave -/

namespace Job

variable {α β : Type} {w : Workspace} {t : Tree} {result : Bool × Tree}

/-- Whether a job returns or not, and leaves a tree, as the result says. -/
def Leaves (job : Job α) (w : Workspace) (result : Bool × Tree) : Prop :=
  ∃ x : Except Fault α, x.isOk = result.1 ∧ job.Ends w x result.2

theorem Ends.leaves {job : Job α} {x : Except Fault α} (h : job.Ends w x t) :
    job.Leaves w (x.isOk, t) := ⟨x, rfl, h⟩

theorem Ends.bind_leaves {job : Job α} {next : α → Job β} {a : α} (h : job.Ends w (.ok a) t)
    (hnext : ∀ journal, (next a).Leaves ⟨t, journal⟩ result) : (job >>= next).Leaves w result := by
  obtain ⟨journal, hrun, hid⟩ := h
  obtain ⟨x, hx, journal', hrun', hid'⟩ := hnext journal
  exact ⟨x, hx, journal', by rw [run_bind_of_ok hrun, hrun'], hid'.trans hid⟩

theorem Leaves.discard {job : Job α} (h : job.Leaves w result) :
    (job >>= fun _ => pure ()).Leaves w result := by
  obtain ⟨x, hx, hends⟩ := h
  cases x with
  | error fault => exact ⟨.error fault, hx, hends.bind_error⟩
  | ok a => exact ⟨.ok (), hx, hends.bind fun _ => ends_pure _ _⟩

theorem leaves_runConfig (runId : Text) (config : Config) (w : Workspace) :
    (runConfig runId config).Leaves w (w.tree.ran (some config)) := by
  unfold Tree.ran
  dsimp only
  cases hdeclared : w.tree.declared config with
  | error fault => exact (ends_runConfig_of_error hdeclared runId).leaves
  | ok prepared =>
    obtain ⟨samples, declaration⟩ := prepared
    refine ⟨_, ?_, ends_runConfig_of_ok hdeclared runId⟩
    dsimp only
    cases (w.tree.store (Path.ofText config.outputPath) declaration).1 <;> rfl

theorem leaves_run (runId : Text) (v : Value) (w : Workspace) :
    (run runId v).Leaves w (w.tree.ran (Config.ofValue v).toOption) := by
  cases h : Config.ofValue v with
  | error report =>
    rw [run_of_error h]
    exact (ends_throw _ w).leaves
  | ok config =>
    rw [run_of_ok h]
    exact leaves_runConfig runId config w

end Job

/-! ### The steps of commands -/

namespace Command

open Job

variable {α : Type} {yaml : Option YamlReader} {w : Workspace} {t : Tree} {result : Bool × Tree}

theorem ends_reporting {job : Job α} {x : Except Fault α} (heading : Text)
    (h : job.Ends w x t) : (reporting heading job).Ends w x t := by
  obtain ⟨journal, hrun, hid⟩ := h
  have houtcome : (outcome job).Ends w (.ok x) t := ⟨journal, run_outcome hrun, hid⟩
  cases x with
  | ok a => exact houtcome.bind fun _ => ends_pure _ _
  | error fault => exact houtcome.bind fun _ => (ends_log _ _ _ _).bind fun _ => ends_throw _ _

theorem leaves_reporting {job : Job α} (heading : Text) (h : job.Leaves w result) :
    (reporting heading job).Leaves w result := by
  obtain ⟨x, hx, hends⟩ := h
  exact ⟨x, hx, ends_reporting heading hends⟩

theorem ends_decodeText (content : List UInt8) (w : Workspace) :
    (decodeText content).Ends w
      (((Utf8.decode content).mapError .undecodable).map (·.unifyLineBreaks false)) w.tree := by
  unfold decodeText
  cases Utf8.decode content with
  | error fault => exact (ends_ofExcept .undecodable (.error fault) w).bind_error
  | ok text => exact (ends_ofExcept .undecodable (.ok text) w).bind fun _ => ends_pure _ _

theorem ends_loadConfig (yaml : Option YamlReader) (path : Text) (w : Workspace) :
    (loadConfig yaml path).Ends w (w.tree.loaded yaml path) w.tree := by
  refine (ends_tree w).bind fun journal => ?_
  refine (ends_ofExcept .file _ _).bind_of_reads fun found journal => ?_
  cases found with
  | false => exact (ends_throw (.configNotFound path) _).bind_error
  | true =>
    simp only [Bool.not_true, Bool.false_eq_true, if_false]
    refine (ends_ofExcept .file _ _).bind_of_reads fun content journal => ?_
    split
    · exact (ends_decodeText content _).bind_of_reads fun _ _ => ends_ofExcept .json _ _
    · split
      · cases yaml with
        | none => exact ends_throw _ _
        | some read => exact ends_ofExcept .yaml _ _
      · exact ends_throw _ _

theorem ends_validateConfig (yaml : Option YamlReader) (path : Text) (w : Workspace) :
    (validateConfig yaml path).Ends w (w.tree.configured yaml path) w.tree := by
  refine ends_reporting _ ((ends_log _ _ _ w).bind fun journal => ?_)
  refine (ends_loadConfig yaml path ⟨w.tree, journal⟩).bind_of_reads fun v journal => ?_
  have hchecked := ends_ofExcept .invalid (Config.ofValue v) ⟨w.tree, journal⟩
  cases h : Config.ofValue v with
  | error report =>
    rw [h] at hchecked
    exact hchecked.bind_error
  | ok config =>
    rw [h] at hchecked
    exact hchecked.bind fun _ => (ends_log _ _ _ _).bind fun _ => ends_pure _ _

/-- **The question whether anything is given makes no difference:** what is taken for nothing
would be refused as a configuration. -/
theorem leaves_runWith (runId : Text) (v : Value) (w : Workspace) :
    (runWith yaml runId none (some v)).Leaves w (w.tree.ran (Config.ofValue v).toOption) := by
  refine leaves_reporting _ ?_
  by_cases hgiven : v.isGiven = true
  · have hchosen : (chooseConfig yaml none (some v)).Ends w (.ok v) w.tree := by
      simp only [chooseConfig, Option.filter, hgiven, if_true]
      exact (ends_log _ _ _ w).bind fun _ => ends_pure _ _
    exact hchosen.bind_leaves fun journal => leaves_run runId v ⟨w.tree, journal⟩
  · have hchosen : (chooseConfig yaml none (some v)).Ends w (.error .noConfig) w.tree := by
      simp only [chooseConfig, Option.filter, hgiven]
      exact ends_throw _ w
    cases h : Config.ofValue v with
    | error report => exact hchosen.bind_error.leaves
    | ok config => exact absurd (Config.isGiven_of_ofValue h) hgiven

/-! ### The commands -/

theorem leaves_work_validate (runId path : Text) (w : Workspace) :
    (work yaml runId (.validate path)).Leaves w ((w.tree.configured yaml path).isOk, w.tree) :=
  leaves_reporting _ (ends_validateConfig yaml path w).leaves.discard

/-- **`run` goes the way of `validate`:** it runs with the configuration that the file holds,
and where the file holds none, it does nothing. -/
theorem leaves_work_run (runId path : Text) (w : Workspace) :
    (work yaml runId (.run path false)).Leaves w
      (w.tree.ran (w.tree.configured yaml path).toOption) := by
  refine leaves_reporting _ ?_
  have hloaded := ends_loadConfig yaml path w
  cases h : w.tree.loaded yaml path with
  | error fault =>
    rw [h] at hloaded
    rw [Tree.configured, h]
    exact hloaded.bind_error.leaves
  | ok v =>
    rw [h] at hloaded
    rw [Tree.configured_of_loaded h, toOption_mapError]
    refine hloaded.bind_leaves fun journal => ?_
    exact (ends_pure v _).bind_leaves fun journal =>
      (leaves_runWith runId v ⟨w.tree, journal⟩).discard

/-- The configuration that the words of `infer` spell, if the name is one. -/
def spelled (input output name : Text) (exported : Bool) : Option Config :=
  if Checked.isTypeName name then
    some { inputPath := input, outputPath := output, style := { typeName := name, exported } }
  else none

theorem toOption_eq_spelled {input output name : Text} {exported : Bool}
    {entries : List (Value × Value)} {v : Value}
    (hentries : entries.Perm [(.text "input_path", .text input),
      (.text "output_path", .text output), (.text "render", v)])
    (hstyle : ∀ style, Style.check v = .ok style ↔
      Checked.isTypeName name = true ∧ style = { typeName := name, exported }) :
    (Config.ofValue (.mapping entries)).toOption = spelled input output name exported := by
  have hconfig (config : Config) : Config.ofValue (.mapping entries) = .ok config ↔ _ :=
    Config.ofValue_eq_ok_iff.trans (Config.check_paths_eq_ok_iff hentries)
  unfold spelled
  by_cases hname : Checked.isTypeName name = true
  · rw [if_pos hname, (hconfig _).2 ⟨_, (hstyle _).2 ⟨hname, rfl⟩, rfl⟩]
    rfl
  · rw [if_neg hname]
    cases h : Config.ofValue (.mapping entries) with
    | error report => rfl
    | ok config =>
      obtain ⟨style, hchecked, -⟩ := (hconfig config).1 h
      exact absurd ((hstyle style).1 hchecked).1 hname

theorem ofValue_named_eq_ok_iff {name : Text} {exported : Bool} {style : Style} :
    Style.ofValue (.mapping [(.text "type_name", .text name),
      (.text "export", .boolean exported)]) = .ok style ↔
        Checked.isTypeName name = true ∧ style = { typeName := name, exported } :=
  Style.ofValue_eq_ok_iff.trans (Style.check_named_eq_ok_iff (.refl _))

theorem ends_inferConfig {name : Text} (hname : Checked.isTypeName name = true)
    (input output : Text) (exported : Bool) (w : Workspace) :
    (inferConfig (some input) (some output) name exported).Ends w
      (.ok (.mapping [(.text "input_path", .text input), (.text "output_path", .text output),
        (.text "render", { typeName := name, exported : Style }.toValue)])) w.tree := by
  rw [inferConfig, ofValue_named_eq_ok_iff.2 ⟨hname, rfl⟩]
  exact (ends_ofExcept .invalid (.ok _) w).bind fun _ => ends_pure _ _

theorem ends_inferConfig_of_not {name : Text} (hname : ¬Checked.isTypeName name = true)
    (input output : Text) (exported : Bool) (w : Workspace) :
    ∃ fault, (inferConfig (some input) (some output) name exported).Ends w (.error fault)
      w.tree := by
  unfold inferConfig
  cases h : Style.ofValue (.mapping [(.text "type_name", .text name),
      (.text "export", .boolean exported)]) with
  | error report => exact ⟨_, (ends_ofExcept .invalid (.error report) w).bind_error⟩
  | ok style => exact absurd (ofValue_named_eq_ok_iff.1 h).1 hname

/-- **`infer` runs with the configuration that its words spell.**  The style is checked, written
out and checked again; the second check finds the style of the first. -/
theorem leaves_work_infer (runId input output name : Text) (exported : Bool) (w : Workspace) :
    (work yaml runId (.infer (some input) (some output) name exported false)).Leaves w
      (w.tree.ran (spelled input output name exported)) := by
  refine leaves_reporting _ ?_
  by_cases hname : Checked.isTypeName name = true
  · have hagain (style : Style) : Style.check { typeName := name, exported : Style }.toValue =
        .ok style ↔ Checked.isTypeName name = true ∧ style = { typeName := name, exported } := by
      rw [Style.check_toValue hname, Except.ok.injEq]
      exact ⟨fun h => ⟨hname, h.symm⟩, fun h => h.2.symm⟩
    rw [← toOption_eq_spelled (.refl _) hagain]
    refine (ends_inferConfig hname input output exported w).bind_leaves fun journal => ?_
    exact (ends_pure _ _).bind_leaves fun journal =>
      (leaves_runWith runId _ ⟨w.tree, journal⟩).discard
  · obtain ⟨fault, hends⟩ := ends_inferConfig_of_not hname input output exported w
    rw [spelled, if_neg hname]
    exact hends.bind_error.leaves

/-! ### Answers -/

/-- How a command line is answered: by an exit code and by the files that it leaves. -/
def answer (yaml : Option YamlReader) (runId : Text) (words : List Text) (w : Workspace) :
    Nat × Tree :=
  ((execute yaml runId words w).1, (execute yaml runId words w).2.tree)

theorem answer_of_leaves {runId : Text} {words : List Text} {r : Request}
    (hwords : readLine words = .request r) (hquiet : r.isVerbose = false)
    (h : (work yaml runId r).Leaves w result) :
    answer yaml runId words w = (if result.1 then 0 else 1, result.2) := by
  obtain ⟨x, hx, journal, hrun, -⟩ := h
  have hperform : execute yaml runId words w = perform yaml runId r w := by rw [execute, hwords]
  rw [answer, hperform, perform, hquiet]
  simp only [Bool.false_eq_true, if_false]
  rw [hrun, ← hx]
  cases x <;> rfl

theorem answer_validate {path : Text}
    (hwords : readLine ["validate", path] = .request (.validate path)) (runId : Text)
    (w : Workspace) : answer yaml runId ["validate", path] w =
      (if (w.tree.configured yaml path).isOk then 0 else 1, w.tree) :=
  answer_of_leaves hwords rfl (leaves_work_validate runId path w)

theorem answer_run {path : Text} (hwords : readLine ["run", path] = .request (.run path false))
    (runId : Text) (w : Workspace) : answer yaml runId ["run", path] w =
      (if (w.tree.ran (w.tree.configured yaml path).toOption).1 then 0 else 1,
        (w.tree.ran (w.tree.configured yaml path).toOption).2) :=
  answer_of_leaves hwords rfl (leaves_work_run runId path w)

/-- The words of an `infer` command. -/
def inferWords (input output name : Text) (exported : Bool) : List Text :=
  "infer" :: input :: output :: "--type-name" :: name ::
    if exported then [] else ["--no-export"]

/-- A JSON file that holds the settings of an `infer` command, in any order. -/
structure Describes (t : Tree) (path input output name : Text) (exported : Bool) : Prop where
  suffix : (Path.ofText path).suffix = Text.ofString ".json"
  holds : ∃ document entries render, t.fileText (Path.ofText path) = .ok document ∧
    Json.read document = .ok (.mapping entries) ∧
    entries.Perm [(.text "input_path", .text input), (.text "output_path", .text output),
      (.text "render", .mapping render)] ∧
    render.Perm [(.text "type_name", .text name), (.text "export", .boolean exported)]

theorem Describes.toOption_configured {path input output name : Text} {exported : Bool}
    (h : Describes t path input output name exported) :
    (t.configured yaml path).toOption = spelled input output name exported := by
  obtain ⟨document, entries, render, htext, hread, hentries, hrender⟩ := h.holds
  have hloaded : t.loaded yaml path = .ok (.mapping entries) := by
    rw [Tree.loaded_of_fileText h.suffix htext, hread]
    rfl
  rw [Tree.configured_of_loaded hloaded, toOption_mapError]
  exact toOption_eq_spelled hentries fun _ => Style.check_named_eq_ok_iff hrender

/-- How the commands agree on a configuration file.  Each command line is one that is read as
it stands; run ids and journals are those of separate calls on the same files. -/
structure CommandsAgree (yaml : Option YamlReader) (t : Tree) (path : Text) : Prop where
  /-- `validate` exits with 0 or 1 and changes no file. -/
  checks : readLine ["validate", path] = .request (.validate path) → ∀ runId journal,
    ∃ code, (code = 0 ∨ code = 1) ∧ answer yaml runId ["validate", path] ⟨t, journal⟩ = (code, t)
  /-- What `validate` refuses, `run` refuses as well, and it changes nothing. -/
  refuses : readLine ["validate", path] = .request (.validate path) →
    readLine ["run", path] = .request (.run path false) →
    ∀ runId journal, (answer yaml runId ["validate", path] ⟨t, journal⟩).1 = 1 →
    ∀ runId' journal', answer yaml runId' ["run", path] ⟨t, journal'⟩ = (1, t)
  /-- What `validate` accepts is a configuration, and `run` answers as a run with it. -/
  follows : readLine ["validate", path] = .request (.validate path) →
    readLine ["run", path] = .request (.run path false) →
    ∀ runId journal, (answer yaml runId ["validate", path] ⟨t, journal⟩).1 = 0 →
    ∃ config, ((validateConfig yaml path).run ⟨t, journal⟩).1 = .ok config ∧
      ∀ runId' journal' runId'' journal'', answer yaml runId' ["run", path] ⟨t, journal'⟩ =
        (if ((runConfig runId'' config).run ⟨t, journal''⟩).1.isOk then 0 else 1,
          ((runConfig runId'' config).run ⟨t, journal''⟩).2.tree)
  /-- `infer` answers as `run` does with a file that holds the same settings. -/
  spells : ∀ input output name exported, Describes t path input output name exported →
    readLine (inferWords input output name exported) =
      .request (.infer (some input) (some output) name exported false) →
    readLine ["run", path] = .request (.run path false) →
    ∀ runId journal runId' journal',
      answer yaml runId (inferWords input output name exported) ⟨t, journal⟩ =
        answer yaml runId' ["run", path] ⟨t, journal'⟩

/-- **The commands agree,** whatever the files are, whatever a configuration file holds and however
YAML is read. -/
theorem commands_agree (yaml : Option YamlReader) (t : Tree) (path : Text) :
    CommandsAgree yaml t path where
  checks hvalidate runId journal := by
    refine ⟨_, ?_, answer_validate hvalidate runId _⟩
    split
    · exact .inl rfl
    · exact .inr rfl
  refuses hvalidate hrun runId journal hcode runId' journal' := by
    rw [answer_validate hvalidate] at hcode
    rw [answer_run hrun]
    cases h : t.configured yaml path with
    | error fault => rfl
    | ok config => simp [h, Except.isOk, Except.toBool] at hcode
  follows hvalidate hrun runId journal hcode := by
    rw [answer_validate hvalidate] at hcode
    cases h : t.configured yaml path with
    | error fault => simp [h, Except.isOk, Except.toBool] at hcode
    | ok config =>
      obtain ⟨journal₁, hvalidated, -⟩ := ends_validateConfig yaml path ⟨t, journal⟩
      refine ⟨config, by rw [hvalidated, h], fun runId' journal' runId'' journal'' => ?_⟩
      obtain ⟨x, hx, journal₂, hconfig, -⟩ := leaves_runConfig runId'' config ⟨t, journal''⟩
      rw [answer_run hrun, hconfig, h, hx]
      rfl
  spells input output name exported hdescribes hinfer hrun runId journal runId' journal' := by
    rw [answer_run hrun, hdescribes.toOption_configured]
    exact answer_of_leaves hinfer rfl (leaves_work_infer runId input output name exported _)

end Command

namespace Value

mutual

/-- Whether two values are the same, of those that settings are made of. -/
def agrees : Value → Value → Bool
  | .text s, .text t => s == t
  | .boolean a, .boolean b => a == b
  | .mapping es, .mapping fs => agreeAll es fs
  | _, _ => false
termination_by structural v => v

/-- Whether entries are the same one by one. -/
def agreeAll : List (Value × Value) → List (Value × Value) → Bool
  | [], [] => true
  | (k, v) :: es, (l, w) :: fs => k.agrees l && v.agrees w && agreeAll es fs
  | _, _ => false
termination_by structural es => es

end

mutual

theorem eq_of_agrees {v w : Value} (h : v.agrees w = true) : v = w := by
  match v, w with
  | .text s, .text t => rw [eq_of_beq h]
  | .boolean a, .boolean b => rw [eq_of_beq h]
  | .mapping es, .mapping fs => rw [eq_of_agreeAll h]
termination_by structural v

theorem eq_of_agreeAll {es fs : List (Value × Value)} (h : agreeAll es fs = true) : es = fs := by
  match es, fs with
  | [], [] => rfl
  | (k, v) :: es, (l, w) :: fs =>
    rw [agreeAll, Bool.and_eq_true, Bool.and_eq_true] at h
    rw [eq_of_agrees h.1.1, eq_of_agrees h.1.2, eq_of_agreeAll h.2]
termination_by structural es

end

end Value

namespace Command

/-- A configuration whose settings stand in an unusual order. -/
def reorderedConfig : Text :=
  .concat ["\x7b\"render\": \x7b\"export\": false, \"type_name\": \"T\"\x7d, ",
    "\"output_path\": \"d/t.ts\", \"input_path\": \"in.json\"\x7d"]

/-- Samples and a configuration for them. -/
def reorderedFiles : Tree where
  entries := [([Utf8.nameBytes "in.json"], .file (Utf8.nameBytes "[1]")),
    ([Utf8.nameBytes "config.json"], .file (Utf8.nameBytes reorderedConfig))]

/-- The style in the configuration. -/
def reorderedStyle : List (Value × Value) :=
  [(.text "export", .boolean false), (.text "type_name", .text "T")]

/-- The settings in the configuration. -/
def reorderedSettings : List (Value × Value) :=
  [(.text "render", .mapping reorderedStyle), (.text "output_path", .text "d/t.ts"),
    (.text "input_path", .text "in.json")]

theorem read_reorderedConfig : Json.read reorderedConfig = .ok (.mapping reorderedSettings) := by
  have hagrees : ((Json.read reorderedConfig).toOption.any
      (·.agrees (.mapping reorderedSettings))) = true := by decide +kernel
  cases hread : Json.read reorderedConfig with
  | error fault =>
    rw [hread] at hagrees
    cases hagrees
  | ok v =>
    rw [hread] at hagrees
    rw [Value.eq_of_agrees hagrees]

theorem describes_reorderedFiles :
    Describes reorderedFiles "config.json" "in.json" "d/t.ts" "T" false where
  suffix := by decide +kernel
  holds := by
    have htext : (reorderedFiles.fileText (Path.ofText "config.json")).toOption =
        some reorderedConfig := by decide +kernel
    refine ⟨reorderedConfig, reorderedSettings, reorderedStyle, ?_, read_reorderedConfig,
      (List.reverse_perm reorderedSettings).symm, (List.reverse_perm reorderedStyle).symm⟩
    cases hfile : reorderedFiles.fileText (Path.ofText "config.json") with
    | error fault =>
      rw [hfile] at htext
      cases htext
    | ok document =>
      rw [hfile] at htext
      cases htext
      rfl

/-- `config.json` is accepted and followed; the samples are refused as a configuration. -/
theorem commands_agree_reorderedFiles :
    answer none "r" ["validate", "config.json"] ⟨reorderedFiles, .initial⟩ = (0, reorderedFiles) ∧
      (∃ config,
        ((validateConfig none "config.json").run ⟨reorderedFiles, .initial⟩).1 = .ok config ∧
        answer none "r" ["run", "config.json"] ⟨reorderedFiles, .initial⟩ =
          (if ((runConfig "s" config).run ⟨reorderedFiles, .initial⟩).1.isOk then 0 else 1,
            ((runConfig "s" config).run ⟨reorderedFiles, .initial⟩).2.tree)) ∧
      (answer none "r" ["run", "config.json"] ⟨reorderedFiles, .initial⟩).1 = 0 ∧
      answer none "r" (inferWords "in.json" "d/t.ts" "T" false) ⟨reorderedFiles, .initial⟩ =
        answer none "s" ["run", "config.json"] ⟨reorderedFiles, .initial⟩ ∧
      (answer none "r" ["validate", "in.json"] ⟨reorderedFiles, .initial⟩).1 = 1 ∧
      answer none "r" ["run", "in.json"] ⟨reorderedFiles, .initial⟩ = (1, reorderedFiles) := by
  have hagree := commands_agree none reorderedFiles "config.json"
  have hcode : (answer none "r" ["validate", "config.json"] ⟨reorderedFiles, .initial⟩).1 = 0 := by
    decide +kernel
  have hrefused : (answer none "r" ["validate", "in.json"] ⟨reorderedFiles, .initial⟩).1 = 1 := by
    decide +kernel
  obtain ⟨code, -, hchecked⟩ := hagree.checks rfl "r" .initial
  obtain ⟨config, hconfig, hfollows⟩ := hagree.follows rfl rfl "r" .initial hcode
  refine ⟨?_, ⟨config, hconfig, hfollows "r" .initial "s" .initial⟩, by decide +kernel, ?_,
    hrefused, ?_⟩
  · rw [hchecked] at hcode ⊢
    rw [← hcode]
  · exact hagree.spells _ _ _ _ describes_reorderedFiles rfl rfl "r" .initial "s" .initial
  · exact (commands_agree none reorderedFiles "in.json").refuses rfl rfl "r" .initial hrefused "r"
      .initial

end Command
end SampleShape
