/-
# File-based runs

A run reads samples from a file, infers their declaration and writes it to a
file, and reports each step in the journal.  Files and journal form the workspace
that a job works on; what a job did before it failed stays done.

Whatever happens in a run, the run in progress is afterwards the one from before.
-/

import SampleShape.Fault

namespace SampleShape

/-- What a job works on. -/
structure Workspace where
  tree : Tree
  journal : Journal

namespace Workspace

/-- No files, and a journal that has just been set up. -/
def initial : Workspace := ⟨.empty, .initial⟩

end Workspace

/-- Something done in a workspace, which can fail. -/
abbrev Job (α : Type) := ExceptT Fault (StateM Workspace) α

namespace Job

/-- The result of a step that needs no workspace. -/
def ofExcept {ε α : Type} (fault : ε → Fault) : Except ε α → Job α
  | .ok a => pure a
  | .error e => throw (fault e)

/-- The outcome of a job, which does not stop the jobs after it. -/
def outcome {α : Type} (job : Job α) : Job (Except Fault α) := ExceptT.lift job.run

/-- The files of the workspace. -/
def tree : Job Tree := do return (← get).tree

/-- Changes the journal. -/
def journal (f : Journal → Journal) : Job Unit := modify fun w => { w with journal := f w.journal }

/-- Writes a record. -/
def log (logger : Text) (level : Level) (message : Text) : Job Unit :=
  journal (·.record logger level message)

/-- Enters a run. -/
def pushRun (runId : Text) : Job (Option Text) :=
  modifyGet fun w =>
    let (token, j) := w.journal.push runId
    (token, { w with journal := j })

/-- Works under a run id and then returns to the run from before, also when the
job fails. -/
def underRun {α : Type} (runId : Text) (job : Job α) : Job α := do
  let token ← pushRun runId
  let result ← outcome job
  journal (·.reset token)
  ofExcept id result

/-- Makes the directories of a path. -/
def makePath (p : Path) : Job Unit := do
  let result ← modifyGet fun w =>
    let (result, t) := w.tree.makePath p
    (result, { w with tree := t })
  ofExcept .file result

/-- Stores a file. -/
def writeFile (p : Path) (content : List UInt8) : Job Unit := do
  let t ← ofExcept .file ((← tree).write p content)
  modify fun w => { w with tree := t }

end Job

/-! ### Reading text -/

/-- The text that the content of a file stands for. -/
def decodeText (content : List UInt8) : Job Text := do
  let t ← Job.ofExcept .undecodable (Utf8.decode content)
  return t.unifyLineBreaks false

/-- The text of a file. -/
def readFileText (p : Path) : Job Text := do
  let content ← Job.ofExcept .file ((← Job.tree).read p)
  decodeText content

/-! ### Steps of a run -/

/-- The logger of the sample reader. -/
def readerLogger : Text := "typeshape.connectors.json_file"

/-- The logger of inference. -/
def inferenceLogger : Text := "typeshape.pipeline"

/-- The logger of the declaration writer. -/
def writerLogger : Text := "typeshape.sinks.declaration_file"

/-- The logger of runs. -/
def runLogger : Text := "typeshape.orchestrator"

/-- The samples of a file, which has to hold an array. -/
def readSamples (path : Text) : Job (List Value) := do
  let p := Path.ofText path
  Job.log readerLogger .info (.concat ["Reading samples from ", p.text])
  let document ← readFileText p
  let v ← Job.ofExcept .json (Json.read document)
  match v with
  | .sequence false samples =>
    Job.log readerLogger .info (.concat ["Loaded ", .ofNat samples.length, " samples"])
    return samples
  | v => throw (.notArray p.text v)

/-- Infers the shape of samples. -/
def inferShape (samples : List Value) : Job Shape := do
  let s ← Job.ofExcept .inference (Shape.observed samples)
  Job.log inferenceLogger .debug (.concat ["Merged ", .ofNat samples.length,
    " sample types into kinds=", Text.quotedList s.kindNames])
  return s.normalize

/-- Infers the declaration of samples. -/
def inferDeclaration (style : Style) (samples : List Value) : Job Text := do
  let s ← inferShape samples
  let declaration := s.declaration style
  Job.log inferenceLogger .debug (.concat ["Rendered declaration from ", .ofNat samples.length,
    " samples (", .ofNat declaration.length, " chars)"])
  return declaration

/-- What is known of a written file: its path and its size. -/
structure Receipt where
  target : Text
  bytes : Nat

/-- Writes a declaration to a file; the directories above it are made first. -/
def writeDeclaration (path declaration : Text) : Job Receipt := do
  let p := Path.ofText path
  Job.makePath p.parent
  let content ← Job.ofExcept .unencodable (Utf8.encode declaration)
  Job.writeFile p content
  Job.log writerLogger .info (.concat ["Wrote declaration to ", p.text, " (",
    .ofNat content.length, " bytes)"])
  return ⟨p.text, content.length⟩

/-- The result of a run. -/
structure RunResult where
  runId : Text
  sampleCount : Nat
  declaration : Text
  receipt : Receipt

/-- The steps of a run, in order. -/
def runSteps (runId : Text) (config : Config) : Job RunResult := do
  Job.log runLogger .info (.concat ["Inferring declaration: ", config.inputPath, " -> ",
    config.outputPath])
  let samples ← readSamples config.inputPath
  let declaration ← inferDeclaration config.style samples
  let receipt ← writeDeclaration config.outputPath declaration
  Job.log runLogger .info "Run completed with status: success"
  return ⟨runId, samples.length, declaration, receipt⟩

/-- A run with a configuration that has been checked. -/
def runConfig (runId : Text) (config : Config) : Job RunResult := do
  Job.journal (·.configureAt config.level)
  Job.underRun runId (runSteps runId config)

/-- Infers the declaration of a sample file and writes it to another file. -/
def declareFile (runId input output : Text) (style : Style) : Job Text := do
  let result ← runConfig runId { inputPath := input, outputPath := output, style }
  return result.declaration

/-- A run with a configuration that is given as a value. -/
def run (runId : Text) (config : Value) : Job RunResult := do
  let config ← Job.ofExcept .invalid (Config.ofValue config)
  runConfig runId config

end SampleShape
