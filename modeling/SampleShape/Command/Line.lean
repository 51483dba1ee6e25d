/-
# The command line

The program has three commands: `infer` writes the declaration of a sample file,
`run` does so as a configuration file says, and `validate` checks a configuration
file.  A command line is read as a request, or it asks for help, or it is refused.

What a command itself finds wrong is reported under its own name and usage; an
unknown command, and words that are left over, under the program's.
-/

import SampleShape.Command.Grammar

namespace SampleShape
namespace Command

/-- The flag that asks for help. -/
def helpFlag : Flag := ⟨["-h", "--help"], .help⟩

/-- The flag that asks for more lines in the journal. -/
def verboseFlag : Flag := ⟨["--verbose", "-v"], .verbose⟩

/-- The program as a whole. -/
def mainGrammar : Grammar where
  program := "typeshape"
  usage := "usage: typeshape [-h] \x7binfer,run,validate\x7d ...\n"
  details :=
    .concat ["\nInfer a TypeScript type declaration from sample JSON data\n",
      "\npositional arguments:\n",
      "  \x7binfer,run,validate\x7d  Command to execute\n",
      "    infer               Infer a declaration from a JSON array file\n",
      "    run                 Run inference from a configuration file\n",
      "    validate            Validate configuration without running\n",
      "\noptions:\n",
      "  -h, --help            show this help message and exit\n"]
  flags := [helpFlag]
  places := []

/-- The command that infers a declaration. -/
def inferGrammar : Grammar where
  program := "typeshape infer"
  usage :=
    .concat ["usage: typeshape infer [-h] [--type-name TYPE_NAME] [--no-export] [--verbose]\n",
      "                       input output\n"]
  details :=
    .concat ["\npositional arguments:\n",
      "  input                 Path to a JSON file holding an array of samples\n",
      "  output                Path of the declaration file to write\n",
      "\noptions:\n",
      "  -h, --help            show this help message and exit\n",
      "  --type-name TYPE_NAME\n",
      "                        Name of the declared type\n",
      "  --no-export           Omit the export keyword\n",
      "  --verbose, -v         Enable verbose logging\n"]
  flags := [helpFlag, ⟨["--type-name"], .typeName⟩, ⟨["--no-export"], .noExport⟩, verboseFlag]
  places := ["input", "output"]

/-- The command that follows a configuration file. -/
def runGrammar : Grammar where
  program := "typeshape run"
  usage := "usage: typeshape run [-h] [--verbose] config\n"
  details :=
    .concat ["\npositional arguments:\n",
      "  config         Path to configuration file (JSON or YAML)\n",
      "\noptions:\n",
      "  -h, --help     show this help message and exit\n",
      "  --verbose, -v  Enable verbose logging\n"]
  flags := [helpFlag, verboseFlag]
  places := ["config"]

/-- The command that checks a configuration file. -/
def validateGrammar : Grammar where
  program := "typeshape validate"
  usage := "usage: typeshape validate [-h] config\n"
  details :=
    .concat ["\npositional arguments:\n",
      "  config      Path to configuration file (JSON or YAML)\n",
      "\noptions:\n",
      "  -h, --help  show this help message and exit\n"]
  flags := [helpFlag]
  places := ["config"]

/-- The names of the commands. -/
def commandNames : List Text := ["infer", "run", "validate"]

/-- What a command line asks for. -/
inductive Request where
  | nothing
  | infer (input output : Option Text) (typeName : Text) (exported verbose : Bool)
  | run (config : Text) (verbose : Bool)
  | validate (config : Text)

/-- How a command line is answered before any work is done. -/
inductive Reading where
  | request (r : Request)
  | help (g : Grammar)
  | refused (g : Grammar) (f : UsageFault)

/-- The help text of a command. -/
def Grammar.help (g : Grammar) : Text := .concat [g.usage, g.details]

/-- The text that refuses a command line. -/
def Grammar.refusal (g : Grammar) (f : UsageFault) : Text :=
  .concat [g.usage, g.program, ": error: ", f.message, "\n"]

/-- Reads the words of a command, after words that were left over before it. -/
def readCommand (g : Grammar) (leftOver words : List Text) (request : Filled → Request) : Reading :=
  match g.read words with
  | .error .help => .help g
  | .error (.fault f) => .refused g f
  | .ok filled =>
    let leftOver := leftOver ++ filled.leftOver
    if leftOver.isEmpty then .request (request filled)
    else .refused mainGrammar (.leftOver leftOver)

/-- The argument in a place, if the place has a value. -/
def Filled.argument (filled : Filled) (place : Nat) : Option Text :=
  filled.arguments[place]?.getD none

/-- Reads a command and its words. -/
def readNamed (leftOver : List Text) (command : Text) (words : List Text) : Reading :=
  if command = Text.ofString "infer" then
    readCommand inferGrammar leftOver words fun f =>
      .infer (f.argument 0) (f.argument 1) f.typeName f.exported f.verbose
  else if command = Text.ofString "run" then
    readCommand runGrammar leftOver words fun f => .run ((f.argument 0).getD []) f.verbose
  else if command = Text.ofString "validate" then
    readCommand validateGrammar leftOver words fun f => .validate ((f.argument 0).getD [])
  else .refused mainGrammar (.unknownCommand command commandNames)

/-- Reads a command line up to its command, which is the first argument; a
separator in front of it is taken for the command. -/
def readRoles (leftOver : List Text) : List (Text × Role) → Reading
  | [] =>
    if leftOver.isEmpty then .request .nothing else .refused mainGrammar (.leftOver leftOver)
  | (word, .argument) :: rest => readNamed leftOver word (rest.map (·.1))
  | (word, .separator) :: rest =>
    if rest.isEmpty then .refused mainGrammar (.leftOver (leftOver ++ [word]))
    else readNamed leftOver word (rest.map (·.1))
  | (word, .unknownFlag) :: rest => readRoles (leftOver ++ [word]) rest
  | (_, .flag f name joined) :: _ =>
    match mainGrammar.effects f name joined with
    | .error fault => .refused mainGrammar fault
    | .ok _ => .help mainGrammar

/-- Reads a command line. -/
def readLine (words : List Text) : Reading :=
  match mainGrammar.roles words with
  | .error fault => .refused mainGrammar fault
  | .ok roles => readRoles [] roles

end Command
end SampleShape
