/-
# Checking fields

A record is given as a mapping.  Checking it yields the record or the faults of
every field that is wrong, in the order of the fields.  A field that is not given
takes its default, and names that are not known are passed over.

Where a text is wanted, a byte string that is UTF-8 will do.  Where a text has to
be one of some words, it has to be encodable.
-/

import SampleShape.Value
import SampleShape.Journal
import SampleShape.Text.Utf8

namespace SampleShape

/-- What is wrong with a field, or with the whole. -/
inductive FieldCause where
  | missing
  | notText
  | notUnicode
  | notBoolean
  | unreadableBoolean
  | badTypeName (given : Text)
  | badLevel
  | notMapping (record : Text)

namespace FieldCause

/-- The tag of a cause. -/
def tag : FieldCause → Text
  | .missing => "missing"
  | .notText => "string_type"
  | .notUnicode => "string_unicode"
  | .notBoolean => "bool_type"
  | .unreadableBoolean => "bool_parsing"
  | .badTypeName _ => "value_error"
  | .badLevel => "literal_error"
  | .notMapping _ => "model_type"

/-- The wording of a cause. -/
def message : FieldCause → Text
  | .missing => "Field required"
  | .notText => "Input should be a valid string"
  | .notUnicode =>
    "Input should be a valid string, unable to parse raw data as a unicode string"
  | .notBoolean => "Input should be a valid boolean"
  | .unreadableBoolean => "Input should be a valid boolean, unable to interpret input"
  | .badTypeName given =>
    .concat ["Value error, type_name must be a valid TypeScript identifier, got ", given.quoted]
  | .badLevel => "Input should be 'DEBUG', 'INFO', 'WARNING' or 'ERROR'"
  | .notMapping record => .concat ["Input should be a valid dictionary or instance of ", record]

end FieldCause

/-- A fault and the names that lead to its field. -/
structure FieldFault where
  location : List Text
  cause : FieldCause

/-- All faults of a mapping that should describe a record. -/
structure Report where
  record : Text
  faults : List FieldFault

namespace Report

/-- The first line of a report. -/
def headline (r : Report) : Text :=
  .concat [.ofNat r.faults.length, if r.faults.length = 1 then " validation error for " else
    " validation errors for ", r.record]

end Report

/-- The result of checking: a value, or all the faults. -/
abbrev Checked (α : Type) := Except (List FieldFault) α

namespace Checked

/-- The faults of a result. -/
def faults {α : Type} : Checked α → List FieldFault
  | .ok _ => []
  | .error fs => fs

/-- The same faults below a field. -/
def under {α : Type} (name : Text) (c : Checked α) : Checked α :=
  c.mapError fun fs => fs.map fun f => { f with location := name :: f.location }

/-- A single fault. -/
def fail {α : Type} (cause : FieldCause) : Checked α := .error [⟨[], cause⟩]

/-- The check of a field that is given, or the value to take where it is not. -/
def field {α : Type} (entries : List (Value × Value)) (name : Text) (otherwise : Checked α)
    (check : Value → Checked α) : Checked α :=
  under name (match Value.find? name entries with
    | none => otherwise
    | some v => check v)

/-- A text. -/
def text : Value → Checked Text
  | .text t => .ok t
  | .bytes _ content =>
    match Utf8.decode content with
    | .ok t => .ok t
    | .error _ => fail .notUnicode
  | _ => fail .notText

/-- The words for false. -/
def falseWords : List Text := ["0", "off", "f", "false", "n", "no"]

/-- The words for true. -/
def trueWords : List Text := ["1", "on", "t", "true", "y", "yes"]

/-- The truth value of an integer: zero or one. -/
def integerBoolean (i : Int) : Checked Bool :=
  if i = 0 then .ok false
  else if i = 1 then .ok true
  else if -0x8000000000000000 ≤ i ∧ i < 0x8000000000000000 then fail .unreadableBoolean
  else fail .notBoolean

/-- The truth value of a number that is a small integer. -/
def realBoolean (x : Binary64) : Checked Bool :=
  match x.toInt? with
  | some i =>
    if -0x8000000000000000 < i ∧ i < 0x8000000000000000 then integerBoolean i
    else fail .notBoolean
  | none => fail .notBoolean

/-- The truth value of a word, in letters of either case. -/
def wordBoolean (t : Text) : Checked Bool :=
  if t.toLower ∈ falseWords then .ok false
  else if t.toLower ∈ trueWords then .ok true
  else fail .unreadableBoolean

/-- A truth value, also as a number or as a word. -/
def boolean : Value → Checked Bool
  | .boolean b => .ok b
  | .integer i => integerBoolean i
  | .real x => realBoolean x
  | .decimal (.finite d) => realBoolean (.ofDecimal d)
  | .text t => if t.any (·.isSurrogate) then fail .notUnicode else wordBoolean t
  | .bytes false content =>
    match Utf8.decode content with
    | .ok t => wordBoolean t
    | .error _ => fail .unreadableBoolean
  | _ => fail .notBoolean

/-- The letters that can start a type name. -/
def isNameStart (c : CodePoint) : Bool := c.isLetter || c.is '_' || c.is '$'

/-- The letters that can continue a type name. -/
def isNamePart (c : CodePoint) : Bool := isNameStart c || c.isDigit

/-- Whether a text is accepted as a type name: a word of letters, digits, `_` and
`$` that starts with no digit, up to a line feed at the end. -/
def isTypeName : Text → Bool
  | [] => false
  | c :: rest =>
    let after := rest.dropWhile isNamePart
    isNameStart c && (after.isEmpty || after == Text.ofString "\n")

/-- A type name. -/
def typeName (v : Value) : Checked Text := do
  let t ← text v
  if isTypeName t then return t else fail (.badTypeName t)

/-- The level of a run; the journal's highest level is not among the choices. -/
def level : Value → Checked Level
  | .text t =>
    if t.any (·.isSurrogate) then fail .notUnicode
    else match Level.ofName? t with
      | some .critical => fail .badLevel
      | some l => .ok l
      | none => fail .badLevel
  | _ => fail .badLevel

end Checked

end SampleShape
