/-
# Sample values

A sample is a dynamic value.  The kinds that have a shape are those of JSON
(text, numbers, booleans, null, sequences and mappings) together with
`undefined`, which marks a slot that was never filled.  Values of all other kinds can
reach the library too; inference refuses them, and its report shows them as they are
written in source text.  Some of these kinds the library knows itself (sets of at most
one item, byte strings, decimals, dates, moments, ranges and the ellipsis).  A value of
any further kind is foreign: it is known by what it answers when it is asked.

Writing a value can fail: an integer may have too many digits, and a foreign value
answers as it likes.

A mapping keeps its entries in order of insertion.  Inserting under a key that
is already there keeps the key and its place and replaces the value.  Keys that
are numbers are compared as numbers, so `1`, `1.0` and true are one key.
-/

import SampleShape.Binary64.Shortest
import SampleShape.Calendar
import SampleShape.Decimal.Extended
import SampleShape.Text.Quoted

namespace SampleShape

/-- A failure of something outside the library: its kind and its wording. -/
structure ForeignFault where
  kind : Text
  message : Text
  deriving DecidableEq

/-- Why a value cannot be written as source text. -/
inductive Unwritable where
  | longInteger (l : LongInteger)
  | foreign (f : ForeignFault)

namespace Unwritable

/-- The wording of a failure. -/
def message : Unwritable → Text
  | .longInteger l => l.message
  | .foreign f => f.message

end Unwritable

/-- A value of a kind that the library does not know, by what it answers: the word
for its kind, whether it counts as given, and its source text or why it has none.
The number tells it apart from others. -/
structure Foreign where
  number : Nat
  kindWord : Text
  isGiven : Bool
  literal : Except ForeignFault Text

/-- A dynamic value. -/
inductive Value where
  | undefined
  | null
  | boolean (b : Bool)
  | integer (i : Int)
  | real (x : Binary64)
  | text (t : Text)
  | sequence (fixed : Bool) (items : List Value)
  | mapping (entries : List (Value × Value))
  | set (frozen : Bool) (item : Option Value)
  | bytes (mutable : Bool) (content : List UInt8)
  | decimal (d : ExtendedDecimal)
  | date (year month day : Nat)
  | moment (m : Moment)
  | range (stop : Int)
  | ellipsis
  | foreign (f : Foreign)

namespace Value

/-- A sequence that can grow. -/
abbrev list (items : List Value) : Value := .sequence false items

/-- The word for the kind of a value, as reports show it. -/
def kindWord : Value → Text
  | .undefined => "_Undefined"
  | .null => "NoneType"
  | .boolean _ => "bool"
  | .integer _ => "int"
  | .real _ => "float"
  | .text _ => "str"
  | .sequence false _ => "list"
  | .sequence true _ => "tuple"
  | .mapping _ => "dict"
  | .set false _ => "set"
  | .set true _ => "frozenset"
  | .bytes false _ => "bytes"
  | .bytes true _ => "bytearray"
  | .decimal _ => "Decimal"
  | .date .. => "date"
  | .moment _ => "datetime"
  | .range _ => "range"
  | .ellipsis => "ellipsis"
  | .foreign f => f.kindWord

/-- The word for the kind of a value together with the calendar it belongs to, if
it belongs to one. -/
def fullKindWord : Value → Text
  | .date .. => "datetime.date"
  | .moment _ => "datetime.datetime"
  | v => v.kindWord

/-! ### Source text -/

/-- The brackets around the items of a sequence; a tuple of one item keeps a
comma. -/
def bracket (fixed : Bool) (items : List Text) : Text :=
  match fixed, items with
  | false, _ => .concat ["[", .join ", " items, "]"]
  | true, [item] => .concat ["(", item, ",)"]
  | true, _ => .concat ["(", .join ", " items, ")"]

/-- The brackets around the item of a set, if it has one. -/
def bracketSet (frozen : Bool) (item : Option Text) : Text :=
  match frozen, item with
  | false, none => "set()"
  | false, some t => .concat ["\x7b", t, "\x7d"]
  | true, none => "frozenset()"
  | true, some t => .concat ["frozenset(\x7b", t, "\x7d)"]

mutual

/-- A value as source text would write it. -/
def literal : Value → Except Unwritable Text
  | .undefined => .ok "UNDEFINED"
  | .null => .ok "None"
  | .boolean b => .ok (if b then "True" else "False")
  | .integer i => (Decimal.writeInt i).mapError .longInteger
  | .real x => .ok x.toText
  | .text t => .ok t.quoted
  | .sequence fixed items => do return bracket fixed (← literals items)
  | .mapping entries => do
    return .concat ["\x7b", .join ", " (← entryLiterals entries), "\x7d"]
  | .set frozen none => .ok (bracketSet frozen none)
  | .set frozen (some item) => do return bracketSet frozen (some (← item.literal))
  | .bytes false content => .ok (Text.quotedBytes content)
  | .bytes true content => .ok (Text.quotedMutableBytes content)
  | .decimal d => .ok (.concat ["Decimal('", d.toText, "')"])
  | .date year month day =>
    .ok (.concat ["datetime.date(", .ofNat year, ", ", .ofNat month, ", ", .ofNat day, ")"])
  | .moment m => .ok m.literal
  | .range stop => do
    return .concat ["range(0, ", ← (Decimal.writeInt stop).mapError .longInteger, ")"]
  | .ellipsis => .ok "Ellipsis"
  | .foreign f => f.literal.mapError .foreign
termination_by structural v => v

/-- The items of a sequence as source text. -/
def literals : List Value → Except Unwritable (List Text)
  | [] => .ok []
  | v :: rest => do
    let t ← v.literal
    let ts ← literals rest
    return t :: ts
termination_by structural vs => vs

/-- The entries of a mapping as source text. -/
def entryLiterals : List (Value × Value) → Except Unwritable (List Text)
  | [] => .ok []
  | (k, v) :: rest => do
    let key ← k.literal
    let value ← v.literal
    let ts ← entryLiterals rest
    return .concat [key, ": ", value] :: ts
termination_by structural es => es

end

/-! ### Keys -/

/-- A number exactly, or one of the three values that are none. -/
inductive Quantity where
  | exact (d : Decimal)
  | infinite (negative : Bool)
  | nan

/-- Whether two quantities are equal; not a number equals nothing. -/
def Quantity.same : Quantity → Quantity → Bool
  | .exact a, .exact b => a.sameNumber b
  | .infinite a, .infinite b => a == b
  | _, _ => false

/-- The quantity of an extended decimal. -/
def Quantity.ofDecimal : ExtendedDecimal → Quantity
  | .finite d => .exact d
  | .infinite negative => .infinite negative
  | .nan .. => .nan

/-- The quantity of a value that is a number. -/
def quantity? : Value → Option Quantity
  | .boolean b => some (.exact (.ofInt (if b then 1 else 0)))
  | .integer i => some (.exact (.ofInt i))
  | .real .nan => some .nan
  | .real (.infinite negative) => some (.infinite negative)
  | .real x => x.toDecimal?.map .exact
  | .decimal d => some (.ofDecimal d)
  | _ => none

/-- Whether two values that hold no others are one key. -/
def sameAtom (v w : Value) : Bool :=
  match v.quantity?, w.quantity? with
  | some a, some b => a.same b
  | some _, none => false
  | none, some _ => false
  | none, none =>
    match v, w with
    | .undefined, .undefined => true
    | .null, .null => true
    | .text s, .text t => s == t
    | .bytes _ a, .bytes _ b => a == b
    | .date y m d, .date y' m' d' => y == y' && m == m' && d == d'
    | .moment a, .moment b => a == b
    | .range a, .range b => a == b || (a ≤ 0 && b ≤ 0)
    | .ellipsis, .ellipsis => true
    | .foreign f, .foreign g => f.number == g.number
    | _, _ => false

mutual

/-- Whether two values are one key of a mapping. -/
def sameKey : Value → Value → Bool
  | .sequence true items, w =>
    match w with
    | .sequence true items' => sameKeys items items'
    | _ => false
  | .set _ none, w =>
    match w with
    | .set _ none => true
    | _ => false
  | .set _ (some item), w =>
    match w with
    | .set _ (some item') => item.sameKey item'
    | _ => false
  | v, w => v.sameAtom w
termination_by structural v => v

/-- Whether two rows of values agree place by place. -/
def sameKeys : List Value → List Value → Bool
  | [], ws => ws.isEmpty
  | v :: vs, ws =>
    match ws with
    | [] => false
    | w :: ws => v.sameKey w && sameKeys vs ws
termination_by structural vs => vs

end

/-- The entries after a value is stored under a key. -/
def insertEntry (key value : Value) : List (Value × Value) → List (Value × Value)
  | [] => [(key, value)]
  | (k, v) :: rest =>
    if k.sameKey key then (k, value) :: rest else (k, v) :: insertEntry key value rest

/-- The mapping that stores the entries one after the other. -/
def ofEntries (entries : List (Value × Value)) : Value :=
  .mapping (entries.foldl (fun es e => insertEntry e.1 e.2 es) [])

/-- The value that a mapping's entries hold under a name. -/
def find? (name : Text) : List (Value × Value) → Option Value
  | [] => none
  | (.text key, v) :: rest => if key = name then some v else find? name rest
  | _ :: rest => find? name rest

/-- Whether a value counts as given: not absent, zero or empty. -/
def isGiven : Value → Bool
  | .undefined => false
  | .null => false
  | .boolean b => b
  | .integer i => i != 0
  | .real x => !x.isZero
  | .text t => !t.isEmpty
  | .sequence _ items => !items.isEmpty
  | .mapping entries => !entries.isEmpty
  | .set _ item => item.isSome
  | .bytes _ content => !content.isEmpty
  | .decimal d => !(Quantity.ofDecimal d).same (.exact (.ofInt 0))
  | .date .. => true
  | .moment _ => true
  | .range stop => 0 < stop
  | .ellipsis => true
  | .foreign f => f.isGiven

end Value
end SampleShape
