/-
# Quoted literals

Messages show a text or a byte string between quotes, with everything that
would not print as itself written as an escape:

  * the quotes are single, unless the content has a single quote and no double
    one;
  * a backslash and the quote in use are escaped by a backslash;
  * line feed, carriage return and tab are `\n`, `\r` and `\t`;
  * any other unprintable code point is `\xNN`, `\uNNNN` or `\UNNNNNNNN`, the
    shortest that fits, in small hexadecimal letters.

In a byte string every byte outside the printable ASCII range is `\xNN`.  A byte
string that can change is shown inside a call, with every single quote escaped.
-/

import SampleShape.Text.Printable

namespace SampleShape
namespace Text

/-- The single quote. -/
def singleQuote : CodePoint := .ofNat 0x27

/-- The double quote. -/
def doubleQuote : CodePoint := .ofNat 0x22

/-- The quote that surrounds a content: double only where it saves escapes. -/
def quoteFor (t : Text) : CodePoint :=
  if singleQuote ∈ t ∧ doubleQuote ∉ t then doubleQuote else singleQuote

/-- The escapes common to texts and byte strings. -/
def escapeCommon? (quote c : CodePoint) : Option Text :=
  if c = quote || c.is '\\' then some [.ofChar '\\', c]
  else if c.is '\n' then some "\\n"
  else if c.is '\r' then some "\\r"
  else if c.is '\t' then some "\\t"
  else none

/-- The shortest numeric escape of a code point. -/
def escapeNumeric (c : CodePoint) : Text :=
  if c.val < 0x100 then concat ["\\x", hex 2 c.val]
  else if c.val < 0x10000 then concat ["\\u", hex 4 c.val]
  else concat ["\\U", hex 8 c.val]

/-- How one code point of a text is shown between quotes. -/
def escape (quote c : CodePoint) : Text :=
  (escapeCommon? quote c).getD (if c.isPrintable then [c] else escapeNumeric c)

/-- A text between quotes. -/
def quoted (t : Text) : Text :=
  let quote := quoteFor t
  quote :: t.flatMap (escape quote) ++ [quote]

/-- How one byte of a byte string is shown between quotes. -/
def escapeByte (quote c : CodePoint) : Text :=
  (escapeCommon? quote c).getD
    (if 0x20 ≤ c.val && c.val ≤ 0x7E then [c] else escapeNumeric c)

/-- A byte string between quotes, marked by a leading `b`; `escaped` is the quote
that is escaped in it. -/
def quotedWith (escaped : CodePoint → CodePoint) (bytes : List UInt8) : Text :=
  let content : Text := bytes.map fun b => .ofNat b.toNat
  let quote := quoteFor content
  .ofChar 'b' :: quote :: content.flatMap (escapeByte (escaped quote)) ++ [quote]

/-- A byte string between quotes. -/
def quotedBytes (bytes : List UInt8) : Text := quotedWith id bytes

/-- A byte string that can change. -/
def quotedMutableBytes (bytes : List UInt8) : Text :=
  concat ["bytearray(", quotedWith (fun _ => singleQuote) bytes, ")"]

/-- A list of texts, each between quotes, in square brackets. -/
def quotedList (ts : List Text) : Text :=
  concat ["[", join ", " (ts.map quoted), "]"]

end Text
end SampleShape
