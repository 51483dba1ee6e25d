/-
# Commands

Carrying out a command line.  A configuration file is read by its suffix; the
configuration then goes the same way whether it comes from a file, from the words
of a command line or from a caller.  A command reports its failure in the journal
and by its exit code: 0 for success, 1 for a failure, 2 for a command line that is
refused.

How YAML is read is not for commands to say: they are given a reader, or none where
there is none to be had.
-/

import SampleShape.Run
import SampleShape.Command.Line

namespace SampleShape
namespace Command

/-- The logger of commands. -/
def logger : Text := "typeshape.cli"

/-- How YAML is read: from the path that reports name, and the content of the file. -/
abbrev YamlReader := Text → List UInt8 → Except ForeignFault Value

variable (yaml : Option YamlReader)

/-- The configuration that a file holds. -/
def loadConfig (path : Text) : Job Value := do
  let p := Path.ofText path
  let t ← Job.tree
  if !(← Job.ofExcept .file (t.exists? p)) then throw (.configNotFound path)
  let content ← Job.ofExcept .file (t.read p)
  if p.suffix = Text.ofString ".json" then
    Job.ofExcept .json (Json.read (← decodeText content))
  else if p.suffix = Text.ofString ".yaml" || p.suffix = Text.ofString ".yml" then
    match yaml with
    | none => throw .yamlUnavailable
    | some read => Job.ofExcept .yaml (read p.text content)
  else throw (.configFormat p.suffix)

/-- The configuration to use: one that is given, or else one from a file. -/
def chooseConfig (path : Option Text) (given : Option Value) : Job Value := do
  match given.filter Value.isGiven, path.filter (!·.isEmpty) with
  | some config, _ =>
    Job.log logger .info "Using provided config dictionary"
    return config
  | none, some path =>
    let config ← loadConfig yaml path
    Job.log logger .info (.concat ["Loaded config from ", path])
    return config
  | none, none => throw .noConfig

/-- Does a job; its failure is also reported in the journal, after a heading. -/
def reporting {α : Type} (heading : Text) (job : Job α) : Job α := do
  match ← Job.outcome job with
  | .ok a => return a
  | .error fault =>
    Job.log logger .error (.concat [heading, fault.message])
    throw fault

/-- A run with a configuration that is given or in a file. -/
def runWith (runId : Text) (path : Option Text) (given : Option Value) : Job RunResult :=
  reporting "Inference run failed: " do
    let config ← chooseConfig yaml path given
    run runId config

/-- Checks a configuration file. -/
def validateConfig (path : Text) : Job Config :=
  reporting "Config validation failed: " do
    Job.log logger .info (.concat ["Validating config: ", path])
    let v ← loadConfig yaml path
    let config ← Job.ofExcept .invalid (Config.ofValue v)
    Job.log logger .info "Configuration is valid"
    return config

/-- The configuration with its level set to the lowest. -/
def setVerbose : Value → Job Value
  | .mapping entries =>
    return .mapping (Value.insertEntry (.text "log_level") (.text Level.debug.name) entries)
  | v => throw (.notAssignable v)

/-- The setting that a place of a command line gives; a place without a value
gives an empty list. -/
def placeValue : Option Text → Value
  | some t => .text t
  | none => .list []

/-- The configuration of the `infer` command. -/
def inferConfig (input output : Option Text) (typeName : Text) (exported : Bool) : Job Value := do
  let style ← Job.ofExcept .invalid (Style.ofValue
    (.mapping [(.text "type_name", .text typeName), (.text "export", .boolean exported)]))
  return .mapping
    [(.text "input_path", placeValue input), (.text "output_path", placeValue output),
     (.text "render", style.toValue)]

/-- The job of a request. -/
def work (runId : Text) : Request → Job Unit
  | .nothing => Job.journal fun j => { j with output := j.output ++ mainGrammar.help }
  | .infer input output typeName exported verbose =>
    reporting "Inference failed: " do
      let config ← inferConfig input output typeName exported
      let config ← if verbose then setVerbose config else pure config
      let _ ← runWith yaml runId none (some config)
  | .run path verbose =>
    reporting "Inference failed: " do
      let config ← loadConfig yaml path
      let config ← if verbose then setVerbose config else pure config
      let _ ← runWith yaml runId none (some config)
  | .validate path =>
    reporting "Validation failed: " do
      let _ ← validateConfig yaml path

/-- Whether a request asks for more lines in the journal. -/
def Request.isVerbose : Request → Bool
  | .nothing => false
  | .infer _ _ _ _ verbose => verbose
  | .run _ verbose => verbose
  | .validate _ => false

/-- Carries out a request and gives the exit code. -/
def perform (runId : Text) (r : Request) (w : Workspace) : Nat × Workspace :=
  let job : Job Unit := do
    if r.isVerbose then Job.journal (·.configureAt .debug)
    work yaml runId r
  match job.run w with
  | (.ok _, w) => (0, w)
  | (.error _, w) => (1, w)

/-- The paths that a request reads or writes, as far as the files at hand tell. -/
def Request.paths (t : Tree) : Request → List Text
  | .nothing => []
  | .infer input output _ _ _ => [input, output].filterMap id
  | .validate path => [path]
  | .run path _ =>
    match (loadConfig yaml path).run ⟨t, .initial⟩ with
    | (.ok v, _) =>
      match Config.ofValue v with
      | .ok config => [path, config.inputPath, config.outputPath]
      | .error _ => [path]
    | (.error _, _) => [path]

/-- Carries out a command line and gives the exit code.  A run that it starts has
the given id. -/
def execute (runId : Text) (words : List Text) (w : Workspace) : Nat × Workspace :=
  match readLine words with
  | .request r => perform yaml runId r w
  | .help g => (0, { w with journal.output := w.journal.output ++ g.help })
  | .refused g f => (2, { w with journal.errors := w.journal.errors ++ g.refusal f })

end Command
end SampleShape
