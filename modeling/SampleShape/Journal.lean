/-
# The journal

Each run reports what it does in a journal of lines.  A record has a logger name,
a level and a message; it is written when its level reaches the threshold of its
logger.  Loggers of this program's own family have a threshold of their own,
which follows the configured level; all others, and these as long as theirs is
unset, follow the root threshold.

A record goes to every installed handler as a line that also names the run in
progress.  Without a handler, only the bare message of a warning or worse is
written, to the error stream.

Configuring installs the handler if there is none, and then brings a root
threshold that is unset or above `info` down to `info`.  It then sets the family
threshold when it is given a level, and to `info` when it has installed the
handler.

A level is given by name, in letters of either case.  A name that is not known
stands for `info`.  Two names are those of other settings of the journal, its
format and its table of formats, and are refused.
-/

import SampleShape.Text.Quoted

namespace SampleShape

/-- How severe a record is. -/
inductive Level where
  | debug
  | info
  | warning
  | error
  | critical
  deriving DecidableEq

namespace Level

/-- The rank of a level. -/
def rank : Level → Nat
  | .debug => 10
  | .info => 20
  | .warning => 30
  | .error => 40
  | .critical => 50

/-- The name of a level. -/
def name : Level → Text
  | .debug => "DEBUG"
  | .info => "INFO"
  | .warning => "WARNING"
  | .error => "ERROR"
  | .critical => "CRITICAL"

/-- The level of a given name. -/
def ofName? (t : Text) : Option Level :=
  [Level.debug, .info, .warning, .error, .critical].find? fun l => l.name == t

/-- The threshold that lets every record pass. -/
def unset : Nat := 0

/-- The thresholds that names in capitals stand for. -/
def thresholds : List (Text × Nat) :=
  [("DEBUG", 10), ("INFO", 20), ("WARN", 30), ("WARNING", 30), ("ERROR", 40), ("CRITICAL", 50),
   ("FATAL", 50), ("NOTSET", unset)]

/-- A name that is none of a level: the journal's format, or its table of
formats. -/
inductive Misnomer where
  | format
  | formatTable
  deriving DecidableEq

/-- The threshold that a name stands for, in letters of either case. -/
def threshold (t : Text) : Except Misnomer Nat :=
  if t.toUpper = Text.ofString "BASIC_FORMAT" then .error .format
  else if t.toUpper = Text.ofString "_STYLES" then .error .formatTable
  else .ok ((thresholds.lookup t.toUpper).getD info.rank)

/-- The wording of a refusal. -/
def Misnomer.message : Misnomer → Text
  | .format => "Unknown level: '%(levelname)s:%(name)s:%(message)s'"
  | .formatTable =>
    .concat ["Level not an integer or a valid string: \x7b",
      "'%': (<class 'logging.PercentStyle'>, '%(levelname)s:%(name)s:%(message)s'), ",
      "'\x7b': (<class 'logging.StrFormatStyle'>, ",
      "'\x7blevelname\x7d:\x7bname\x7d:\x7bmessage\x7d'), ",
      "'$': (<class 'logging.StringTemplateStyle'>, ",
      "'$\x7blevelname\x7d:$\x7bname\x7d:$\x7bmessage\x7d')\x7d"]

end Level

/-- The state of the journal: the two thresholds, the number of handlers, the run
in progress, and what was written to the two streams. -/
structure Journal where
  rootThreshold : Nat
  familyThreshold : Nat
  handlers : Nat
  runId : Text
  output : Text
  errors : Text

namespace Journal

/-- The name of this program's family of loggers. -/
def family : Text := "typeshape"

/-- The run id outside of any run. -/
def noRun : Text := "-"

/-- The state of a program that has just started. -/
def initial : Journal := ⟨Level.info.rank, Level.info.rank, 1, noRun, [], []⟩

/-- The state before any configuring call, with a given root threshold. -/
def bare (rootThreshold : Nat) (j : Journal) : Journal :=
  { j with rootThreshold, familyThreshold := Level.unset, handlers := 0 }

/-- Installs the handler if there is none. -/
def install (j : Journal) : Journal :=
  if j.handlers = 0 then
    { j with
      handlers := 1
      rootThreshold :=
        if j.rootThreshold = Level.unset ∨ Level.info.rank < j.rootThreshold then Level.info.rank
        else j.rootThreshold }
  else j

/-- Configures the journal without a level. -/
def configure (j : Journal) : Journal :=
  if j.handlers = 0 then { j.install with familyThreshold := Level.info.rank } else j

/-- Configures the journal with a level. -/
def configureAt (level : Level) (j : Journal) : Journal :=
  { j.install with familyThreshold := level.rank }

/-- Configures the journal with a level that is given by name.  A name that is
refused leaves the handler installed. -/
def configureNamed (name : Text) (j : Journal) : Except Level.Misnomer Unit × Journal :=
  match Level.threshold name with
  | .ok familyThreshold => (.ok (), { j.install with familyThreshold })
  | .error misnomer => (.error misnomer, j.install)

/-- The name that a logger goes by; the logger without a name is the root. -/
def loggerName (name : Text) : Text := if name.isEmpty then "root" else name

/-- Whether a logger belongs to the family. -/
def inFamily (logger : Text) : Bool :=
  logger == family || logger.startsWith (.concat [family, "."])

/-- The threshold of a logger. -/
def threshold (logger : Text) (j : Journal) : Nat :=
  if inFamily logger && j.familyThreshold != Level.unset then j.familyThreshold else j.rootThreshold

/-- The line of a record; the level is padded to eight places. -/
def line (logger : Text) (level : Level) (message : Text) (j : Journal) : Text :=
  .concat [level.name, .times (8 - level.name.length) " ", " | ", loggerName logger,
    " | run=", j.runId, " | ", message, "\n"]

/-- Writes a record. -/
def record (logger : Text) (level : Level) (message : Text) (j : Journal) : Journal :=
  if level.rank < j.threshold logger then j
  else if j.handlers = 0 then
    if level.rank < Level.warning.rank then j
    else { j with errors := j.errors ++ message ++ Text.ofString "\n" }
  else { j with output := j.output ++ .times j.handlers (j.line logger level message) }

/-- Enters a run.  The token gives the id to return to; an empty id enters no
run. -/
def push (runId : Text) (j : Journal) : Option Text × Journal :=
  if runId.isEmpty then (none, j) else (some j.runId, { j with runId })

/-- Leaves a run that was entered with a token. -/
def reset (token : Option Text) (j : Journal) : Journal :=
  match token with
  | none => j
  | some runId => { j with runId }

end Journal
end SampleShape
