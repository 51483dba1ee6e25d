/-
# The words of a command line

A grammar lists the flags and the positional arguments of a command.  Each word of
a command line has a role under it:

  * a word that does not start with `-`, the word `-`, a negative number, and a
    word with a blank in it that is no flag are arguments;
  * a flag is given by one of its names, by a beginning of a long name that only
    one flag has, or by its letter with the letters of further flags joined to it;
    a value can be joined to a long name by `=`;
  * `--` separates: after it all words are arguments;
  * any other word is an unknown flag.

Arguments fill the positional places in order, and a separator goes with the place
before it, or else with the place after it.  A place drops the first `--` among
its words, so a place whose only word is `--` has no value.  What no place or flag
takes is left over.
-/

import SampleShape.Text.DecimalDigit
import SampleShape.Text.Quoted

namespace SampleShape
namespace Command

/-- What a flag asks for. -/
inductive Effect where
  | help
  | typeName
  | noExport
  | verbose
  deriving DecidableEq

/-- Whether a flag needs a value. -/
def Effect.needsValue : Effect → Bool
  | .typeName => true
  | _ => false

/-- A flag with all its names. -/
structure Flag where
  names : List Text
  effect : Effect

/-- A command: its name, its usage and help texts, its flags and its positional
places. -/
structure Grammar where
  program : Text
  usage : Text
  details : Text
  flags : List Flag
  places : List Text

namespace Grammar

/-- Every name of every flag. -/
def spellings (g : Grammar) : List (Text × Flag) :=
  g.flags.flatMap fun f => f.names.map fun n => (n, f)

end Grammar

/-- Why a command line is refused. -/
inductive UsageFault where
  | ambiguousFlag (word : Text) (names : List Text)
  | valueNeeded (flag : Flag)
  | valueIgnored (flag : Flag) (value : Text)
  | placesEmpty (places : List Text)
  | unknownCommand (word : Text) (commands : List Text)
  | leftOver (words : List Text)

namespace UsageFault

/-- The wording of a refusal. -/
def message : UsageFault → Text
  | .ambiguousFlag word names =>
    .concat ["ambiguous option: ", word, " could match ", .join ", " names]
  | .valueNeeded flag => .concat ["argument ", .join "/" flag.names, ": expected one argument"]
  | .valueIgnored flag value =>
    .concat ["argument ", .join "/" flag.names, ": ignored explicit argument ", value.quoted]
  | .placesEmpty places =>
    .concat ["the following arguments are required: ", .join ", " places]
  | .unknownCommand word commands =>
    .concat ["argument command: invalid choice: ", word.quoted, " (choose from ",
      .join ", " (commands.map Text.quoted), ")"]
  | .leftOver words => .concat ["unrecognized arguments: ", .join " " words]

end UsageFault

/-! ### Roles -/

/-- The role of a word. -/
inductive Role where
  | argument
  | separator
  | flag (flag : Flag) (name : Text) (joined : Option Text)
  | unknownFlag

/-- A text cut at its first `=`, if it has one. -/
def cutEquals (t : Text) : Text × Option Text :=
  match t.dropWhile (!·.is '=') with
  | [] => (t, none)
  | _ :: value => (t.takeWhile (!·.is '='), some value)

/-- Whether a word starts as long names do, with two dashes. -/
def isLong (word : Text) : Bool := word.startsWith "--"

/-- Whether a word is a negative number, up to a line feed at its end. -/
def isNegativeNumber : Text → Bool
  | [] => false
  | c :: rest =>
    let digits := if rest.getLast?.any (·.is '\n') then rest.dropLast else rest
    let fraction := digits.dropWhile (·.isDecimalDigit)
    c.is '-' &&
      match fraction with
      | [] => !digits.isEmpty
      | p :: fraction => p.is '.' && !fraction.isEmpty && fraction.all (·.isDecimalDigit)

/-- The flags that a word can mean by a beginning of their names, or by their
letter. -/
def Grammar.candidates (g : Grammar) (word : Text) : List (Flag × Text × Option Text) :=
  if isLong word then
    let (front, joined) := cutEquals word
    (g.spellings.filter fun s => s.1.startsWith front).map fun s => (s.2, s.1, joined)
  else
    g.spellings.filterMap fun s =>
      if s.1 = word.take 2 then some (s.2, s.1, some (word.drop 2))
      else if s.1.startsWith word then some (s.2, s.1, none)
      else none

/-- The role of a word before any separator. -/
def Grammar.role (g : Grammar) (word : Text) : Except UsageFault Role :=
  let (front, joined) := cutEquals word
  if !word.head?.any (·.is '-') then .ok .argument
  else match g.spellings.lookup word with
  | some f => .ok (.flag f word none)
  | none =>
    if word.length = 1 then .ok .argument
    else match (if joined.isSome then g.spellings.lookup front else none) with
    | some f => .ok (.flag f front joined)
    | none =>
      match g.candidates word with
      | [(f, name, joined)] => .ok (.flag f name joined)
      | [] =>
        if isNegativeNumber word || word.any (·.is ' ') then .ok .argument else .ok .unknownFlag
      | several => .error (.ambiguousFlag word (several.map fun c => c.2.1))

/-- The words with their roles. -/
def Grammar.roles (g : Grammar) : List Text → Except UsageFault (List (Text × Role))
  | [] => .ok []
  | word :: rest =>
    if word = Text.ofString "--" then
      .ok ((word, .separator) :: rest.map fun w => (w, .argument))
    else do
      let r ← g.role word
      let rs ← g.roles rest
      return (word, r) :: rs

/-! ### Filling a grammar -/

/-- What a command line says so far. -/
structure Filled where
  arguments : List (Option Text) := []
  typeName : Text := "Data"
  exported : Bool := true
  verbose : Bool := false
  leftOver : List Text := []

/-- Why reading a command line ends early: help was asked for, or it is refused. -/
inductive Early where
  | help
  | fault (f : UsageFault)

/-- Applies flags one after the other. -/
def applyEffects (filled : Filled) : List Effect → Except Early Filled
  | [] => .ok filled
  | .help :: _ => .error .help
  | .typeName :: rest => applyEffects filled rest
  | .noExport :: rest => applyEffects { filled with exported := false } rest
  | .verbose :: rest => applyEffects { filled with verbose := true } rest

/-- The flags of the letters that are joined to a flag's own letter. -/
def Grammar.letters (g : Grammar) (f : Flag) : Text → Except UsageFault (List Effect)
  | [] => .ok [f.effect]
  | c :: rest =>
    match g.spellings.lookup [.ofChar '-', c] with
    | none => .error (.valueIgnored f (c :: rest))
    | some f' => do return f.effect :: (← g.letters f' rest)

/-- The flags meant by a flag that needs no value and a text joined to it. -/
def Grammar.effects (g : Grammar) (f : Flag) (name : Text) (joined : Option Text) :
    Except UsageFault (List Effect) :=
  match joined with
  | none => .ok [f.effect]
  | some text =>
    if isLong name || text.isEmpty then .error (.valueIgnored f text) else g.letters f text

/-- The word before, as far as it matters for a separator or an argument. -/
inductive Before where
  | argument
  | separator
  | other
  deriving DecidableEq

/-- The value of a place that an argument fills.  A separator in front of it is the
one `--` that the place drops. -/
def placeArgument (before : Before) (word : Text) : Option Text :=
  if word = Text.ofString "--" && before != .separator then none else some word

/-- Goes through words with their roles. -/
def Grammar.fill (g : Grammar) (before : Before) (filled : Filled) :
    List (Text × Role) → Except Early Filled
  | [] => .ok filled
  | (word, .argument) :: rest =>
    if filled.arguments.length < g.places.length then
      g.fill .argument
        { filled with arguments := filled.arguments ++ [placeArgument before word] } rest
    else g.fill .other { filled with leftOver := filled.leftOver ++ [word] } rest
  | (word, .separator) :: rest =>
    if before = .argument then g.fill .other filled rest
    else if filled.arguments.length < g.places.length && !rest.isEmpty then
      g.fill .separator filled rest
    else g.fill .other { filled with leftOver := filled.leftOver ++ [word] } rest
  | (word, .unknownFlag) :: rest =>
    g.fill .other { filled with leftOver := filled.leftOver ++ [word] } rest
  | (_, .flag f name joined) :: rest =>
    if f.effect.needsValue then
      match joined with
      | some value => g.fill .other { filled with typeName := value } rest
      | none =>
        match rest with
        | (value, .argument) :: rest => g.fill .other { filled with typeName := value } rest
        | _ => .error (.fault (.valueNeeded f))
    else do
      let effects ← (g.effects f name joined).mapError .fault
      let filled ← applyEffects filled effects
      g.fill .other filled rest

/-- Reads the words of a command. -/
def Grammar.read (g : Grammar) (words : List Text) : Except Early Filled := do
  let roles ← (g.roles words).mapError .fault
  let filled ← g.fill .other {} roles
  let missing := g.places.drop filled.arguments.length
  if missing.isEmpty then return filled else .error (.fault (.placesEmpty missing))

end Command
end SampleShape
