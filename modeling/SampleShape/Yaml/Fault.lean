/-
# Why a document is refused

A document can be refused at every step of reading it: as bytes, as text, as tokens,
as a tree, and as values.  Most reports tell a place, and some also tell what was
being read there and since where.
-/

import SampleShape.Text.Utf8
import SampleShape.Calendar
import SampleShape.Decimal

namespace SampleShape
namespace Yaml

/-- A place in a document, counted from zero. -/
structure Mark where
  line : Nat
  column : Nat
  deriving DecidableEq

/-- What a token is. -/
inductive Symbol where
  | streamEnd
  | documentStart
  | documentEnd
  | mappingStart
  | sequenceStart
  | blockEnd
  | key
  | value
  | entry
  | word (quoted : Bool) (t : Text)
  | bracket (c : CodePoint)
  deriving DecidableEq

namespace Symbol

/-- The name of a token in reports. -/
def name : Symbol → Text
  | .streamEnd => "<stream end>"
  | .documentStart => "<document start>"
  | .documentEnd => "<document end>"
  | .mappingStart => "<block mapping start>"
  | .sequenceStart => "<block sequence start>"
  | .blockEnd => "<block end>"
  | .key => "?"
  | .value => ":"
  | .entry => "-"
  | .word .. => "<scalar>"
  | .bracket c => [c]

end Symbol

/-- A construct that a report names as the one being read. -/
inductive Construct where
  | document
  | node (start : Mark)
  | sequence (start : Mark)
  | mapping (start : Mark)

/-- What is wrong within quotes. -/
inductive QuoteCause where
  | streamEnd
  | limit
  | unknownEscape (c : CodePoint)
  | badDigit (width : Nat) (c : CodePoint)

/-- Why a document is refused. -/
inductive Fault where
  /-- The file is no text. -/
  | undecodable (f : Utf8.DecodeFault)
  /-- The text holds a code point that no document may hold. -/
  | unprintable (c : CodePoint) (position : Nat)
  /-- The document makes use of something that is not supported. -/
  | unsupported
  /-- No token starts like this. -/
  | strayCharacter (c : CodePoint) (here : Mark)
  /-- A mark stands where there can be none. -/
  | misplaced (symbol : Symbol) (here : Mark)
  /-- Something is wrong within the quotes that start at a place. -/
  | quoted (cause : QuoteCause) (start here : Mark)
  /-- An escape gives the number of no code point. -/
  | noCodePoint
  /-- A scalar that has to be a key is followed by no colon. -/
  | unfinishedKey (start here : Mark)
  /-- A construct goes on with a token that cannot belong to it. -/
  | unexpected (within : Construct) (found : Symbol) (here : Mark)
  /-- A document is followed by another one. -/
  | secondDocument (first second : Mark)
  /-- A key of a mapping is a sequence or a mapping. -/
  | compoundKey (mapping key : Mark)
  /-- A mapping is to be merged with something that is none. -/
  | unmergeable (mapping : Mark) (inSequence : Bool) (found : Text) (here : Mark)
  /-- A word has a meaning that is not supported. -/
  | unconstructible (tag : Text) (here : Mark)
  /-- A word is spelt like a number and has too many digits. -/
  | longInteger (l : LongInteger)
  /-- A word is spelt like a number of a base and has no digits. -/
  | noDigits (base : Nat)
  /-- A word is spelt like a number and has too many places of base 60. -/
  | tooManyPlaces
  /-- A word is spelt like a date that is none. -/
  | calendar (f : Calendar.Fault)

namespace Fault

/-- The line of a report that tells a place. -/
def markLine (path : Text) (m : Mark) : Text :=
  .concat ["  in \"", path, "\", line ", .ofNat (m.line + 1), ", column ", .ofNat (m.column + 1)]

/-- A report: what was being done and since where, what is wrong, and where.  The
first place is left out where it is also the second. -/
def report (path context : Text) (since : Option Mark) (problem : Text) (here : Mark) : Text :=
  let first : List Text := if context.isEmpty then [] else [context]
  let second := (since.filter (· ≠ here)).toList.map (markLine path)
  .join "\n" (first ++ second ++ [problem, markLine path here])

/-- What is not allowed where a mark is misplaced. -/
def misplacedText : Symbol → Text
  | .entry => "sequence entries are not allowed here"
  | .key => "mapping keys are not allowed here"
  | _ => "mapping values are not allowed here"

/-- What was being read within quotes, and what is wrong. -/
def quoteTexts : QuoteCause → Text × Text
  | .streamEnd => ("while scanning a quoted scalar", "found unexpected end of stream")
  | .limit => ("while scanning a quoted scalar", "found unexpected document separator")
  | .unknownEscape c =>
    ("while scanning a double-quoted scalar",
      .concat ["found unknown escape character ", Text.quoted [c]])
  | .badDigit width c =>
    ("while scanning a double-quoted scalar",
      .concat ["expected escape sequence of ", .ofNat width, " hexadecimal numbers, but found ",
        Text.quoted [c]])

/-- What was being read, since where, and what was expected. -/
def expectation : Construct → Text × Option Mark × Text
  | .document => ([], none, "expected '<document start>', but found ")
  | .node start =>
    ("while parsing a block node", some start, "expected the node content, but found ")
  | .sequence start =>
    ("while parsing a block collection", some start, "expected <block end>, but found ")
  | .mapping start =>
    ("while parsing a block mapping", some start, "expected <block end>, but found ")

/-- The wording of a refusal of a file. -/
def message (path : Text) : Fault → Text
  | .undecodable f => f.message
  | .unprintable c position =>
    .concat ["unacceptable character #x", .hex 4 c.val, ": special characters are not allowed\n",
      "  in \"", path, "\", position ", .ofNat position]
  | .unsupported => .concat ["Unsupported YAML document: ", path]
  | .strayCharacter c here =>
    report path "while scanning for the next token" none
      (.concat ["found character ", Text.quoted [c], " that cannot start any token"]) here
  | .misplaced symbol here => report path [] none (misplacedText symbol) here
  | .quoted cause start here =>
    let (context, problem) := quoteTexts cause
    report path context (some start) problem here
  | .noCodePoint => "chr() arg not in range(0x110000)"
  | .unfinishedKey start here =>
    report path "while scanning a simple key" (some start) "could not find expected ':'" here
  | .unexpected within found here =>
    let (context, since, expected) := expectation within
    report path context since (.concat [expected, "'", found.name, "'"]) here
  | .secondDocument first second =>
    report path "expected a single document in the stream" (some first)
      "but found another document" second
  | .compoundKey mapping key =>
    report path "while constructing a mapping" (some mapping) "found unhashable key" key
  | .unmergeable mapping inSequence found here =>
    report path "while constructing a mapping" (some mapping)
      (.concat ["expected a mapping", if inSequence then [] else " or list of mappings",
        " for merging, but found ", found]) here
  | .unconstructible tag here =>
    report path [] none
      (.concat ["could not determine a constructor for the tag '", tag, "'"]) here
  | .longInteger l => l.message
  | .noDigits base => .concat ["invalid literal for int() with base ", .ofNat base, ": ''"]
  | .tooManyPlaces => "int too large to convert to float"
  | .calendar f => f.message

/-- The kind of a refusal: the step of reading that it comes from, or that of a word
that stands for no value. -/
def kind : Fault → Text
  | .undecodable _ => "UnicodeDecodeError"
  | .unprintable .. => "ReaderError"
  | .unsupported => "YAMLError"
  | .strayCharacter .. => "ScannerError"
  | .misplaced .. => "ScannerError"
  | .quoted .. => "ScannerError"
  | .noCodePoint => "ValueError"
  | .unfinishedKey .. => "ScannerError"
  | .unexpected .. => "ParserError"
  | .secondDocument .. => "ComposerError"
  | .compoundKey .. => "ConstructorError"
  | .unmergeable .. => "ConstructorError"
  | .unconstructible .. => "ConstructorError"
  | .longInteger _ => "ValueError"
  | .noDigits _ => "ValueError"
  | .tooManyPlaces => "OverflowError"
  | .calendar _ => "ValueError"

end Fault

end Yaml
end SampleShape
