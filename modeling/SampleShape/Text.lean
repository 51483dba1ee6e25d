/-
# Text as a sequence of code points

A sample key may hold any Unicode code point, also one half of a surrogate
pair standing alone: a JSON escape can name it, and a declaration or an error
message has to carry it until the moment it is written to a file.  The
characters of `String` exclude those halves, so the library's text is a list of
code points.  Fixed wording is written as a string literal and read as text by
`Text.ofString`.
-/

namespace SampleShape

/-- A Unicode code point, surrogate halves included. -/
structure CodePoint where
  val : Nat
  isLt : val < 0x110000
  deriving DecidableEq

namespace CodePoint

theorem toNat_lt (c : Char) : c.toNat < 0x110000 := by
  have h : c.val.toNat.isValidChar := c.valid
  unfold Nat.isValidChar at h
  show c.val.toNat < 0x110000
  omega

/-- The code point of a character. -/
def ofChar (c : Char) : CodePoint := ⟨c.toNat, toNat_lt c⟩

/-- The code point with a given number; a number past the last one gives the
replacement character. -/
def ofNat (n : Nat) : CodePoint :=
  if h : n < 0x110000 then ⟨n, h⟩ else ⟨0xFFFD, by decide⟩

/-- Whether the code point is the character `ch`. -/
def is (c : CodePoint) (ch : Char) : Bool := c.val == ch.toNat

/-- The first halves of surrogate pairs. -/
def isHighSurrogate (c : CodePoint) : Bool := 0xD800 ≤ c.val && c.val < 0xDC00

/-- The second halves of surrogate pairs. -/
def isLowSurrogate (c : CodePoint) : Bool := 0xDC00 ≤ c.val && c.val < 0xE000

/-- The code points that UTF-8 cannot hold. -/
def isSurrogate (c : CodePoint) : Bool := 0xD800 ≤ c.val && c.val < 0xE000

/-- The ASCII decimal digits. -/
def isDigit (c : CodePoint) : Bool := 0x30 ≤ c.val && c.val ≤ 0x39

/-- The value of an ASCII decimal digit. -/
def digit (c : CodePoint) : Nat := c.val - 0x30

/-- The ASCII letters. -/
def isLetter (c : CodePoint) : Bool :=
  (0x41 ≤ c.val && c.val ≤ 0x5A) || (0x61 ≤ c.val && c.val ≤ 0x7A)

/-- The value of an ASCII hexadecimal digit, of either case. -/
def hexDigit? (c : CodePoint) : Option Nat :=
  if c.isDigit then some c.digit
  else if 0x41 ≤ c.val && c.val ≤ 0x46 then some (c.val - 0x41 + 10)
  else if 0x61 ≤ c.val && c.val ≤ 0x66 then some (c.val - 0x61 + 10)
  else none

/-- The letters beyond ASCII whose capitals are ASCII letters: the sharp s, the
dotless i, the long s and the Latin ligatures. -/
def foreignCapitals : List (Nat × String) :=
  [(0xDF, "SS"), (0x131, "I"), (0x17F, "S"), (0xFB00, "FF"), (0xFB01, "FI"), (0xFB02, "FL"),
   (0xFB03, "FFI"), (0xFB04, "FFL"), (0xFB05, "ST"), (0xFB06, "ST")]

/-- The capitals of a letter, as far as they are ASCII letters.  Any other code
point stays. -/
def toUpper (c : CodePoint) : List CodePoint :=
  if 0x61 ≤ c.val && c.val ≤ 0x7A then [ofNat (c.val - 0x20)]
  else match foreignCapitals.lookup c.val with
    | some capitals => capitals.toList.map ofChar
    | none => [c]

/-- The small letter of an ASCII capital; any other code point stays. -/
def toLower (c : CodePoint) : CodePoint :=
  if 0x41 ≤ c.val && c.val ≤ 0x5A then ofNat (c.val + 0x20) else c

end CodePoint

/-- A text: any sequence of code points. -/
abbrev Text := List CodePoint

namespace Text

instance : LawfulBEq Text := inferInstance

/-- The text of a string. -/
def ofString (s : String) : Text := s.toList.map CodePoint.ofChar

instance : Coe String Text := ⟨ofString⟩

/-- Several texts one after the other. -/
def concat (parts : List Text) : Text := parts.flatten

/-- Several texts with a separator between neighbours. -/
def join (sep : Text) : List Text → Text
  | [] => []
  | [t] => t
  | t :: rest => t ++ sep ++ join sep rest

/-- A text repeated `n` times. -/
def times (n : Nat) (t : Text) : Text := (List.replicate n t).flatten

/-- The decimal numeral of a natural number. -/
def ofNat (n : Nat) : Text := (Nat.toDigits 10 n).map CodePoint.ofChar

/-- The decimal numeral of an integer. -/
def ofInt : Int → Text
  | .ofNat n => ofNat n
  | .negSucc n => CodePoint.ofChar '-' :: ofNat (n + 1)

/-- The hexadecimal numeral of `n` in small letters, filled up with zeros to
`width` digits. -/
def hex (width n : Nat) : Text :=
  let digits := (Nat.toDigits 16 n).map CodePoint.ofChar
  List.replicate (width - digits.length) (CodePoint.ofChar '0') ++ digits

/-- The number that a row of decimal digits stands for. -/
def toNat (digits : Text) : Nat := digits.foldl (fun n c => 10 * n + c.digit) 0

/-- Whether a text occurs at the front of another. -/
def startsWith (t front : Text) : Bool := front.isPrefixOf t

/-- The text cut at every occurrence of `c`; there is always one piece more
than occurrences. -/
def splitOn (c : Char) : Text → List Text
  | [] => [[]]
  | d :: rest =>
    if d.is c then [] :: splitOn c rest
    else match splitOn c rest with
      | [] => [[d]]
      | piece :: pieces => (d :: piece) :: pieces

/-- Every line break as a line feed, after a carriage return or not. -/
def unifyLineBreaks (afterReturn : Bool) : Text → Text
  | [] => []
  | c :: rest =>
    if c.is '\r' then .ofChar '\n' :: unifyLineBreaks true rest
    else if c.is '\n' && afterReturn then unifyLineBreaks false rest
    else c :: unifyLineBreaks false rest

/-- The order by code points, a text before its own continuations. -/
def le : Text → Text → Bool
  | [], _ => true
  | _ :: _, [] => false
  | c :: s, d :: t => c.val < d.val || (c.val == d.val && le s t)

/-- The text with the letters that have ASCII capitals in capitals. -/
def toUpper (t : Text) : Text := t.flatMap CodePoint.toUpper

/-- The text with ASCII letters in small letters. -/
def toLower (t : Text) : Text := t.map CodePoint.toLower

end Text

end SampleShape
