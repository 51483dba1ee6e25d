/-
# What a run does to files and journal

A run reads its samples before it touches any file, makes the directories above its
output, encodes the declaration and only then stores it.  So a run that fails leaves every
file as it was, one that fails before it writes leaves the whole tree as it was, and one
that returns has changed one file, which holds the encoding of the declaration
(`run_effects`).  Whatever happens, the run in progress is afterwards the one from before.

`Job.Ends` says what a job comes to: its outcome and the tree it leaves.  What it adds to
the journal is left open, except that the run in progress stays.  Jobs are put together by
two rules, for a first step that returns (`Ends.bind`) and for one that fails
(`Ends.bind_error`), and each step of a run has a lemma that names its outcome.
-/

import SampleShape.Proofs.TreeGrowth
import SampleShape.Run

namespace SampleShape

/-! ### What a run reads and stores -/

namespace Tree

/-- The text of a file. -/
def fileText (t : Tree) (p : Path) : Except Fault Text := do
  let content ← (t.read p).mapError .file
  let document ← (Utf8.decode content).mapError .undecodable
  return document.unifyLineBreaks false

/-- The samples that a file holds: its text is a JSON array. -/
def samples (t : Tree) (path : Text) : Except Fault (List Value) := do
  let document ← t.fileText (Path.ofText path)
  match ← (Json.read document).mapError .json with
  | .sequence false samples => .ok samples
  | v => .error (.notArray (Path.ofText path).text v)

/-- The samples of a configured input, and the declaration that describes them. -/
def declared (t : Tree) (config : Config) : Except Fault (List Value × Text) := do
  let samples ← t.samples config.inputPath
  let declaration ← (Shape.inferDeclaration config.style samples).mapError .inference
  return (samples, declaration)

/-- Makes the directories above a path and stores the encoding of a text there. -/
def store (t : Tree) (p : Path) (text : Text) : Except Fault (List UInt8) × Tree :=
  match t.makePath p.parent with
  | (.error fault, t') => (.error (.file fault), t')
  | (.ok _, t') =>
    match Utf8.encode text with
    | .error fault => (.error (.unencodable fault), t')
    | .ok content =>
      match t'.write p content with
      | .error fault => (.error (.file fault), t')
      | .ok t'' => (.ok content, t'')

end Tree

namespace Job

variable {α β : Type} {w : Workspace} {t t' : Tree}

/-- What a job comes to in a workspace: its outcome and the tree it leaves.  The run in
progress stays. -/
def Ends (job : Job α) (w : Workspace) (outcome : Except Fault α) (t : Tree) : Prop :=
  ∃ journal : Journal, job.run w = (outcome, ⟨t, journal⟩) ∧ journal.runId = w.journal.runId

/-! ### Rules -/

theorem run_bind_of_ok {job : Job α} {next : α → Job β} {a : α} {w' : Workspace}
    (h : job.run w = (.ok a, w')) : (job >>= next).run w = (next a).run w' := by
  rw [ExceptT.run_bind]
  simp [h, bind, StateT.bind]

theorem run_bind_of_error {job : Job α} {next : α → Job β} {fault : Fault} {w' : Workspace}
    (h : job.run w = (.error fault, w')) : (job >>= next).run w = (.error fault, w') := by
  rw [ExceptT.run_bind]
  simp only [bind, StateT.bind, h]
  rfl

/-- **A step that returns is followed by the next,** in the tree that it left. -/
theorem Ends.bind {job : Job α} {next : α → Job β} {a : α} {outcome : Except Fault β}
    (h : job.Ends w (.ok a) t) (hnext : ∀ journal, (next a).Ends ⟨t, journal⟩ outcome t') :
    (job >>= next).Ends w outcome t' := by
  obtain ⟨journal, hrun, hid⟩ := h
  obtain ⟨journal', hrun', hid'⟩ := hnext journal
  exact ⟨journal', by rw [run_bind_of_ok hrun, hrun'], hid'.trans hid⟩

/-- **A step that fails is the last.** -/
theorem Ends.bind_error {job : Job α} {next : α → Job β} {fault : Fault}
    (h : job.Ends w (.error fault) t) : (job >>= next).Ends w (.error fault) t := by
  obtain ⟨journal, hrun, hid⟩ := h
  exact ⟨journal, run_bind_of_error hrun, hid⟩

/-- Two steps that leave the tree alone, of which the second depends on the outcome of the
first. -/
theorem Ends.bind_of_reads {job : Job α} {next : α → Job β} {x : Except Fault α}
    {y : α → Except Fault β} (h : job.Ends w x w.tree)
    (hnext : ∀ a journal, (next a).Ends ⟨w.tree, journal⟩ (y a) w.tree) :
    (job >>= next).Ends w (x >>= y) w.tree := by
  cases x with
  | error fault => exact h.bind_error
  | ok a => exact h.bind (hnext a)

/-! ### Steps -/

theorem ends_pure (a : α) (w : Workspace) : (pure a : Job α).Ends w (.ok a) w.tree :=
  ⟨w.journal, rfl, rfl⟩

theorem ends_throw (fault : Fault) (w : Workspace) :
    (throw fault : Job α).Ends w (.error fault) w.tree :=
  ⟨w.journal, rfl, rfl⟩

theorem ends_ofExcept {ε : Type} (fault : ε → Fault) (x : Except ε α) (w : Workspace) :
    (ofExcept fault x).Ends w (x.mapError fault) w.tree := by
  cases x with
  | error e => exact ends_throw (fault e) w
  | ok a => exact ends_pure a w

theorem ends_tree (w : Workspace) : tree.Ends w (.ok w.tree) w.tree := ⟨w.journal, rfl, rfl⟩

theorem runId_record (logger : Text) (level : Level) (message : Text) (j : Journal) :
    (j.record logger level message).runId = j.runId := by
  unfold Journal.record
  split
  · rfl
  · split
    · split <;> rfl
    · rfl

theorem runId_configureAt (level : Level) (j : Journal) :
    (j.configureAt level).runId = j.runId := by
  unfold Journal.configureAt Journal.install
  split <;> rfl

theorem ends_log (logger : Text) (level : Level) (message : Text) (w : Workspace) :
    (log logger level message).Ends w (.ok ()) w.tree :=
  ⟨_, rfl, runId_record logger level message w.journal⟩

theorem run_outcome {job : Job α} {x : Except Fault α} {w' : Workspace}
    (h : job.run w = (x, w')) : (outcome job).run w = (.ok x, w') := by
  show ExceptT.lift job.run w = _
  simp [ExceptT.lift, ExceptT.mk, Functor.map, StateT.map, h]

/-- The token of a run leads back to the id from before it. -/
theorem runId_reset_push {runId : Text} {j j' : Journal} (h : j'.runId = (j.push runId).2.runId) :
    (j'.reset (j.push runId).1).runId = j.runId := by
  unfold Journal.push at h ⊢
  split
  · rename_i hempty
    rw [if_pos hempty] at h
    exact h
  · rfl

/-- **A run is left on every way out:** afterwards the run in progress is the one from
before, whether the job returned or failed. -/
theorem ends_underRun {job : Job α} {runId : Text} {x : Except Fault α}
    (h : ∀ journal, job.Ends ⟨w.tree, journal⟩ x t) : (underRun runId job).Ends w x t := by
  obtain ⟨journal, hrun, hid⟩ := h (w.journal.push runId).2
  refine ⟨journal.reset (w.journal.push runId).1, ?_, runId_reset_push hid⟩
  have hpush : (pushRun runId).run w =
      (.ok (w.journal.push runId).1, ⟨w.tree, (w.journal.push runId).2⟩) := rfl
  unfold underRun
  rw [run_bind_of_ok hpush, run_bind_of_ok (run_outcome hrun)]
  cases x <;> rfl

/-! ### Reading and inferring -/

theorem ends_readFileText (p : Path) (w : Workspace) :
    (readFileText p).Ends w (w.tree.fileText p) w.tree := by
  refine (ends_tree w).bind fun journal => ?_
  refine (ends_ofExcept .file _ _).bind_of_reads fun content _ => ?_
  exact (ends_ofExcept .undecodable _ _).bind_of_reads fun _ _ => ends_pure _ _

/-- **Samples are read from the tree as it is,** and nothing is changed. -/
theorem ends_readSamples (path : Text) (w : Workspace) :
    (readSamples path).Ends w (w.tree.samples path) w.tree := by
  refine (ends_log readerLogger .info _ w).bind fun journal => ?_
  refine (ends_readFileText _ ⟨w.tree, journal⟩).bind_of_reads fun document journal => ?_
  refine (ends_ofExcept .json _ _).bind_of_reads fun v journal => ?_
  cases v with
  | sequence fixed items =>
    cases fixed with
    | false => exact (ends_log _ _ _ _).bind fun _ => ends_pure _ _
    | true => exact ends_throw _ _
  | _ => exact ends_throw _ _

theorem ends_inferShape (samples : List Value) (w : Workspace) :
    (inferShape samples).Ends w ((Shape.infer samples).mapError .inference) w.tree := by
  unfold inferShape Shape.infer
  cases hobserved : Shape.observed samples with
  | error fault => exact (ends_ofExcept .inference (.error fault) w).bind_error
  | ok s =>
    refine (ends_ofExcept .inference (.ok s) w).bind fun journal => ?_
    exact (ends_log _ _ _ _).bind fun _ => ends_pure _ _

theorem ends_inferDeclaration (style : Style) (samples : List Value) (w : Workspace) :
    (inferDeclaration style samples).Ends w
      ((Shape.inferDeclaration style samples).mapError .inference) w.tree := by
  have hshape := ends_inferShape samples w
  unfold inferDeclaration Shape.inferDeclaration
  cases hinfer : Shape.infer samples with
  | error fault =>
    rw [hinfer] at hshape
    exact hshape.bind_error
  | ok s =>
    rw [hinfer] at hshape
    refine hshape.bind fun journal => ?_
    exact (ends_log _ _ _ _).bind fun _ => ends_pure _ _

/-! ### Writing -/

theorem ends_makePath (p : Path) (w : Workspace) :
    (makePath p).Ends w ((w.tree.makePath p).1.mapError .file) (w.tree.makePath p).2 := by
  have hmake : (modifyGet fun w : Workspace =>
      ((w.tree.makePath p).1, { w with tree := (w.tree.makePath p).2 }) : Job _).Ends w
        (.ok (w.tree.makePath p).1) (w.tree.makePath p).2 := ⟨w.journal, rfl, rfl⟩
  exact hmake.bind fun journal => ends_ofExcept .file _ ⟨(w.tree.makePath p).2, journal⟩

theorem ends_writeFile (p : Path) (content : List UInt8) (w : Workspace) :
    (writeFile p content).Ends w (((w.tree.write p content).map fun _ => ()).mapError .file)
      ((w.tree.write p content).toOption.getD w.tree) := by
  refine (ends_tree w).bind fun journal => ?_
  cases w.tree.write p content with
  | error fault => exact (ends_ofExcept .file (.error fault) _).bind_error
  | ok t => exact (ends_ofExcept .file (.ok t) _).bind fun journal => ⟨journal, rfl, rfl⟩

/-- **A declaration is written in three steps:** the directories, the encoding, the file. -/
theorem ends_writeDeclaration (path declaration : Text) (w : Workspace) :
    (writeDeclaration path declaration).Ends w
      ((w.tree.store (Path.ofText path) declaration).1.map fun content =>
        ⟨(Path.ofText path).text, content.length⟩)
      (w.tree.store (Path.ofText path) declaration).2 := by
  have hpath := ends_makePath (Path.ofText path).parent w
  unfold writeDeclaration Tree.store
  cases hmake : w.tree.makePath (Path.ofText path).parent with
  | mk made t =>
    rw [hmake] at hpath
    cases made with
    | error fault => exact hpath.bind_error
    | ok =>
      refine hpath.bind fun journal => ?_
      cases hencode : Utf8.encode declaration with
      | error fault => exact (ends_ofExcept .unencodable (.error fault) _).bind_error
      | ok content =>
        refine (ends_ofExcept .unencodable (.ok content) _).bind fun journal => ?_
        have hfile := ends_writeFile (Path.ofText path) content ⟨t, journal⟩
        dsimp only at hfile ⊢
        cases hwrite : t.write (Path.ofText path) content with
        | error fault =>
          rw [hwrite] at hfile
          exact hfile.bind_error
        | ok t' =>
          rw [hwrite] at hfile
          exact hfile.bind fun _ => (ends_log _ _ _ _).bind fun _ => ends_pure _ _

/-! ### Runs -/

/-- The steps of a run before it writes. -/
def prepare (config : Config) : Job (List Value × Text) := do
  let samples ← readSamples config.inputPath
  let declaration ← inferDeclaration config.style samples
  return (samples, declaration)

theorem ends_prepare (config : Config) (w : Workspace) :
    (prepare config).Ends w (w.tree.declared config) w.tree := by
  refine (ends_readSamples config.inputPath w).bind_of_reads fun samples journal => ?_
  exact (ends_inferDeclaration config.style samples _).bind_of_reads fun _ _ => ends_pure _ _

theorem runSteps_eq (runId : Text) (config : Config) : runSteps runId config = (do
    log runLogger .info (.concat ["Inferring declaration: ", config.inputPath, " -> ",
      config.outputPath])
    let prepared ← prepare config
    let receipt ← writeDeclaration config.outputPath prepared.2
    log runLogger .info "Run completed with status: success"
    return ⟨runId, prepared.1.length, prepared.2, receipt⟩) := by
  simp [runSteps, prepare]

theorem ends_runConfig {runId : Text} {config : Config} {x : Except Fault RunResult}
    (h : ∀ journal, (runSteps runId config).Ends ⟨w.tree, journal⟩ x t) :
    (runConfig runId config).Ends w x t := by
  have hconfigure : (journal (·.configureAt config.level)).Ends w (.ok ()) w.tree :=
    ⟨_, rfl, runId_configureAt config.level w.journal⟩
  exact hconfigure.bind fun _ => ends_underRun h

/-- **A run that fails before it writes** leaves the tree as it was. -/
theorem ends_runConfig_of_error {config : Config} {fault : Fault}
    (h : w.tree.declared config = .error fault) (runId : Text) :
    (runConfig runId config).Ends w (.error fault) w.tree := by
  refine ends_runConfig fun journal => ?_
  rw [runSteps_eq]
  refine (ends_log _ _ _ _).bind fun journal => ?_
  have hprepare := ends_prepare config ⟨w.tree, journal⟩
  rw [h] at hprepare
  exact hprepare.bind_error

/-- **A run that has a declaration to write** comes to what storing it comes to. -/
theorem ends_runConfig_of_ok {config : Config} {samples : List Value} {declaration : Text}
    (h : w.tree.declared config = .ok (samples, declaration)) (runId : Text) :
    (runConfig runId config).Ends w
      ((w.tree.store (Path.ofText config.outputPath) declaration).1.map fun content =>
        ⟨runId, samples.length, declaration,
          ⟨(Path.ofText config.outputPath).text, content.length⟩⟩)
      (w.tree.store (Path.ofText config.outputPath) declaration).2 := by
  refine ends_runConfig fun journal => ?_
  rw [runSteps_eq]
  refine (ends_log _ _ _ _).bind fun journal => ?_
  have hprepare := ends_prepare config ⟨w.tree, journal⟩
  rw [h] at hprepare
  refine hprepare.bind fun journal => ?_
  have hwrite := ends_writeDeclaration config.outputPath declaration ⟨w.tree, journal⟩
  dsimp only at hwrite ⊢
  cases hstore : w.tree.store (Path.ofText config.outputPath) declaration with
  | mk stored t =>
    rw [hstore] at hwrite
    cases stored with
    | error fault => exact hwrite.bind_error
    | ok content =>
      exact hwrite.bind fun _ => (ends_log _ _ _ _).bind fun _ => ends_pure _ _

end Job

/-! ### The effects of a run -/

namespace Tree

theorem declared_eq_ok_iff {t : Tree} {config : Config} {samples : List Value}
    {declaration : Text} : t.declared config = .ok (samples, declaration) ↔
      t.samples config.inputPath = .ok samples ∧
        Shape.inferDeclaration config.style samples = .ok declaration := by
  unfold declared
  cases hsamples : t.samples config.inputPath with
  | error fault => simp [bind, Except.bind]
  | ok read =>
    simp only [bind, Except.bind, Except.ok.injEq]
    cases hinfer : Shape.inferDeclaration config.style read with
    | error fault =>
      refine ⟨nofun, ?_⟩
      rintro ⟨rfl, h⟩
      cases hinfer.symm.trans h
    | ok text =>
      constructor
      · rintro ⟨⟩
        exact ⟨rfl, hinfer⟩
      · rintro ⟨rfl, h⟩
        cases hinfer.symm.trans h
        rfl

/-- **What is stored is the encoding of the text,** and where storing fails, at most
directories have been made. -/
theorem store_cases (t : Tree) (p : Path) (text : Text) :
    (∃ fault t', t.store p text = (.error fault, t') ∧ Grown (·.OnWay p.parent) t t') ∨
      ∃ content t', t.store p text = (.ok content, t') ∧ Utf8.encode text = .ok content ∧
        Stored p content t t' := by
  have hgrown := grown_makePath t p.parent
  unfold store
  split
  · rename_i fault t' hmake
    rw [hmake] at hgrown
    exact Or.inl ⟨_, _, rfl, hgrown⟩
  · rename_i t' hmake
    rw [hmake] at hgrown
    split
    · exact Or.inl ⟨_, _, rfl, hgrown⟩
    · rename_i content hencode
      split
      · exact Or.inl ⟨_, _, rfl, hgrown⟩
      · rename_i t'' hwrite
        exact Or.inr ⟨content, t'', rfl, hencode, hgrown.stored hwrite⟩

/-- A text that has an encoding is stored where the directory above is in place and the path
leads to no directory. -/
theorem store_of_isDirectory {t : Tree} {p : Path} {text : Text} {content : List UInt8}
    {l : Location} (hencode : Utf8.encode text = .ok content)
    (hparent : t.isDirectory p.parent = true) (hlocate : t.locate p = .ok l)
    (hl : t.entry? l ≠ some .directory) :
    t.store p text = (.ok content, t.set l (.file content)) := by
  have hwrite : t.write p content = .ok (t.set l (.file content)) :=
    write_eq_ok_iff.2 ⟨l, hlocate, hl, rfl⟩
  rw [store, makePath_of_isDirectory hparent]
  dsimp only
  rw [hencode]
  dsimp only
  rw [hwrite]

end Tree

/-- What a run leaves behind.  `config` is the configuration as it was read, `w` the
workspace that the run starts in. -/
structure RunEffects (runId : Text) (config : Except Fault Config) (w : Workspace)
    (outcome : Except Fault RunResult) (w' : Workspace) : Prop where
  /-- The run in progress is the one from before. -/
  inProgress : w'.journal.runId = w.journal.runId
  /-- A run that returns has stored the declaration of the samples, and nothing else. -/
  returned : ∀ result, outcome = .ok result → ∃ c samples content, config = .ok c ∧
    w.tree.samples c.inputPath = .ok samples ∧
    Shape.inferDeclaration c.style samples = .ok result.declaration ∧
    Utf8.encode result.declaration = .ok content ∧
    result.runId = runId ∧ result.sampleCount = samples.length ∧
    result.receipt = ⟨(Path.ofText c.outputPath).text, content.length⟩ ∧
    Tree.Stored (Path.ofText c.outputPath) content w.tree w'.tree
  /-- A run that fails has at most made directories above its output. -/
  failed : ∀ fault, outcome = .error fault →
    (∀ l bytes, w'.tree.entry? l = some (.file bytes) ↔ w.tree.entry? l = some (.file bytes)) ∧
    ∀ c, config = .ok c →
      Tree.DirectoriesAdded (Path.ofText c.outputPath).parent w.tree w'.tree
  /-- A run that has no declaration to write fails for that reason, and makes nothing. -/
  unprepared : ∀ fault, config >>= w.tree.declared = .error fault →
    outcome = .error fault ∧ w'.tree = w.tree
  /-- A run returns if there is a declaration to write, which has an encoding, and the
  output is no directory but its parent is one. -/
  returns : ∀ c samples declaration content l, config = .ok c →
    w.tree.declared c = .ok (samples, declaration) → Utf8.encode declaration = .ok content →
    w.tree.isDirectory (Path.ofText c.outputPath).parent = true →
    w.tree.locate (Path.ofText c.outputPath) = .ok l → w.tree.entry? l ≠ some .directory →
    ∃ result, outcome = .ok result

theorem RunEffects.of_unprepared {runId : Text} {config : Except Fault Config} {w : Workspace}
    {fault : Fault} {journal : Journal} (h : config >>= w.tree.declared = .error fault)
    (hid : journal.runId = w.journal.runId) :
    RunEffects runId config w (.error fault) ⟨w.tree, journal⟩ where
  inProgress := hid
  returned := nofun
  failed _ _ := ⟨fun _ _ => Iff.rfl, fun _ _ => (Tree.grown_refl w.tree).directoriesAdded⟩
  unprepared _ h' := ⟨congrArg _ (Except.error.inj (h.symm.trans h')), rfl⟩
  returns c samples declaration _ _ hc hdeclared := by
    rw [hc] at h
    cases h.symm.trans hdeclared

theorem runConfig_effects (runId : Text) (config : Config) (w : Workspace) :
    RunEffects runId (.ok config) w ((runConfig runId config).run w).1
      ((runConfig runId config).run w).2 := by
  cases hdeclared : w.tree.declared config with
  | error fault =>
    obtain ⟨journal, hrun, hid⟩ := Job.ends_runConfig_of_error hdeclared runId
    rw [hrun]
    exact .of_unprepared hdeclared hid
  | ok prepared =>
    obtain ⟨samples, declaration⟩ := prepared
    obtain ⟨journal, hrun, hid⟩ := Job.ends_runConfig_of_ok hdeclared runId
    rw [hrun]
    have hprepared : ∀ fault, (Except.ok config >>= w.tree.declared) ≠ .error fault :=
      fun fault h => by cases hdeclared.symm.trans h
    rcases w.tree.store_cases (Path.ofText config.outputPath) declaration with
      ⟨fault, t, hstore, hgrown⟩ | ⟨content, t, hstore, hencode, hstored⟩
    · rw [hstore]
      exact {
        inProgress := hid
        returned := nofun
        failed := fun _ _ => ⟨hgrown.file_iff, fun c hc => by
          cases hc
          exact hgrown.directoriesAdded⟩
        unprepared := fun fault h => absurd h (hprepared fault)
        returns := by
          rintro _ _ _ content l ⟨⟩ hdeclared' hencode hparent hlocate hl
          cases hdeclared.symm.trans hdeclared'
          cases hstore.symm.trans (Tree.store_of_isDirectory hencode hparent hlocate hl) }
    · rw [hstore]
      obtain ⟨hsamples, hinfer⟩ := Tree.declared_eq_ok_iff.1 hdeclared
      exact {
        inProgress := hid
        returned := by
          rintro _ ⟨⟩
          exact ⟨config, samples, content, rfl, hsamples, hinfer, hencode, rfl, rfl, rfl, hstored⟩
        failed := nofun
        unprepared := fun fault h => absurd h (hprepared fault)
        returns := fun _ _ _ _ _ _ _ _ _ _ _ => ⟨_, rfl⟩ }

theorem run_of_ok {value : Value} {config : Config} (h : Config.ofValue value = .ok config)
    (runId : Text) : run runId value = runConfig runId config := by
  rw [run, h]
  rfl

theorem run_of_error {value : Value} {report : Report} (h : Config.ofValue value = .error report)
    (runId : Text) : run runId value = throw (.invalid report) := by
  rw [run, h]
  rfl

/-- **The effects of a run.**  Whatever the run id and the workspace, a run with a
configuration, or with a value that has yet to be read as one, leaves behind what
`RunEffects` says. -/
theorem run_effects (runId : Text) (w : Workspace) :
    (∀ config : Config, RunEffects runId (.ok config) w ((runConfig runId config).run w).1
      ((runConfig runId config).run w).2) ∧
    ∀ value : Value, RunEffects runId ((Config.ofValue value).mapError .invalid) w
      ((run runId value).run w).1 ((run runId value).run w).2 := by
  refine ⟨fun config => runConfig_effects runId config w, fun value => ?_⟩
  cases hconfig : Config.ofValue value with
  | error report =>
    have hrun : (run runId value).run w = (.error (.invalid report), w) := by
      rw [run, hconfig]
      rfl
    rw [hrun]
    exact .of_unprepared rfl rfl
  | ok config =>
    have hrun : (run runId value).run w = (runConfig runId config).run w := by
      rw [run, hconfig]
      rfl
    rw [hrun]
    exact runConfig_effects runId config w

-- the way to `a/../b` goes through `a`, so that directory is made too
example :
    let start : Tree := { entries := [([Utf8.nameBytes "in.json"], .file [0x5B, 0x31, 0x5D])] }
    let config : Config := { inputPath := "in.json", outputPath := "a/../b/t.ts" }
    ((runConfig "r" config).run ⟨start, .initial⟩).2.tree.entries.map (·.1) =
      [[Utf8.nameBytes "in.json"], [Utf8.nameBytes "a"], [Utf8.nameBytes "b"],
        [Utf8.nameBytes "b", Utf8.nameBytes "t.ts"]] := by decide +kernel

end SampleShape
