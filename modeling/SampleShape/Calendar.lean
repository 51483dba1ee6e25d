/-
# Dates and moments

A moment is a date with a time of day, and it may tell how far its clock is ahead
of the universal one.  The years go from 1 on, and that distance is less than a
day; the parts are checked in the order in which they are written, the distance
before all others.
-/

import SampleShape.Text

namespace SampleShape

/-- A date and a time of day.  The offset is in minutes. -/
structure Moment where
  year : Nat
  month : Nat
  day : Nat
  hour : Nat
  minute : Nat
  second : Nat
  microsecond : Nat
  offset : Option Int
  deriving DecidableEq

namespace Calendar

/-- Why there is no such date or moment. -/
inductive Fault where
  | year (y : Nat)
  | month
  | day
  | hour
  | minute
  | second
  | offset (minutes : Int)

/-- A span of whole minutes as source text would write it. -/
def spanText (minutes : Int) : Text :=
  let days := minutes / 1440
  let seconds := minutes % 1440 * 60
  let parts : List Text :=
    (if days = 0 then [] else [.concat ["days=", .ofInt days]]) ++
      (if seconds = 0 then [] else [.concat ["seconds=", .ofInt seconds]])
  .concat ["datetime.timedelta(", if parts.isEmpty then "0" else .join ", " parts, ")"]

/-- The wording of a refusal. -/
def Fault.message : Fault → Text
  | .year y => .concat ["year ", .ofNat y, " is out of range"]
  | .month => "month must be in 1..12"
  | .day => "day is out of range for month"
  | .hour => "hour must be in 0..23"
  | .minute => "minute must be in 0..59"
  | .second => "second must be in 0..59"
  | .offset minutes =>
    .concat ["offset must be a timedelta strictly between -timedelta(hours=24) and ",
      "timedelta(hours=24), not ", spanText minutes, "."]

/-- The number of days of a month. -/
def daysIn (year month : Nat) : Nat :=
  if month = 2 then
    if year % 4 = 0 && (year % 100 != 0 || year % 400 = 0) then 29 else 28
  else if month = 4 || month = 6 || month = 9 || month = 11 then 30
  else 31

/-- What is wrong with a date, if anything is. -/
def dateFault? (year month day : Nat) : Option Fault :=
  if year = 0 then some (.year year)
  else if month = 0 || 12 < month then some .month
  else if day = 0 || daysIn year month < day then some .day
  else none

/-- What is wrong with a time of day, if anything is. -/
def timeFault? (hour minute second : Nat) : Option Fault :=
  if 24 ≤ hour then some .hour
  else if 60 ≤ minute then some .minute
  else if 60 ≤ second then some .second
  else none

/-- What is wrong with an offset, if anything is. -/
def offsetFault? (offset : Option Int) : Option Fault :=
  offset.bind fun minutes => if 1440 ≤ minutes.natAbs then some (.offset minutes) else none

end Calendar

namespace Moment

/-- What is wrong with a moment, if anything is. -/
def fault? (m : Moment) : Option Calendar.Fault :=
  Calendar.offsetFault? m.offset <|> Calendar.dateFault? m.year m.month m.day <|>
    Calendar.timeFault? m.hour m.minute m.second

/-- The clock of a moment as source text would write it. -/
def zoneText : Option Int → List Text
  | none => []
  | some 0 => ["tzinfo=datetime.timezone.utc"]
  | some minutes => [.concat ["tzinfo=datetime.timezone(", Calendar.spanText minutes, ")"]]

/-- A moment as source text would write it: without the seconds and their parts
where they are zero. -/
def literal (m : Moment) : Text :=
  let seconds : List Nat :=
    if m.microsecond != 0 then [m.second, m.microsecond]
    else if m.second != 0 then [m.second]
    else []
  let numbers := [m.year, m.month, m.day, m.hour, m.minute] ++ seconds
  .concat ["datetime.datetime(", .join ", " (numbers.map Text.ofNat ++ zoneText m.offset), ")"]

end Moment

end SampleShape
