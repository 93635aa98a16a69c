import Bindery.Text.Quoted

/-!
# Dates and times

A configuration file may hold dates and times, and every log line carries one.
A time has a zone or none.  `Date.ofParts` and `Timestamp.ofParts` check the
calendar.  The first part that is out of range is reported, from the year down
to the second.

Two times with a zone are equal if they are one instant.
-/

namespace Bindery

/-- A day of the calendar. -/
structure Date where
  /-- The year. -/
  year : Nat
  /-- The month, from 1. -/
  month : Nat
  /-- The day of the month, from 1. -/
  day : Nat
deriving DecidableEq, Repr

/-- A day with the time of the day. -/
structure Timestamp extends Date where
  /-- The hour. -/
  hour : Nat
  /-- The minute. -/
  minute : Nat
  /-- The second. -/
  second : Nat
  /-- The millionths of a second. -/
  micro : Nat
  /-- The minutes by which the zone is ahead of the universal time, if there is a zone. -/
  zone : Option Int
deriving DecidableEq, Repr

/-! ## The calendar -/

/-- Why the parts are no time. -/
inductive CalendarFault where
  /-- The year is not in 1 to 9999. -/
  | year (n : Nat)
  /-- The month is not in 1 to 12. -/
  | month
  /-- The month has no such day. -/
  | day
  /-- The hour is not in 0 to 23. -/
  | hour
  /-- The minute is not in 0 to 59. -/
  | minute
  /-- The second is not in 0 to 59. -/
  | second
  /-- The zone is a whole day or more away. -/
  | zone (minutes : Int)
deriving DecidableEq, Repr

namespace Date

/-- The year has a 29th of February. -/
def isLeap (year : Nat) : Bool := year % 4 == 0 && (year % 100 != 0 || year % 400 == 0)

/-- The number of days of a month. -/
def daysIn (year month : Nat) : Nat :=
  if month == 2 then if isLeap year then 29 else 28
  else if [4, 6, 9, 11].contains month then 30
  else 31

/-- The day with the given parts. -/
def ofParts (year month day : Nat) : Except CalendarFault Date :=
  if year < 1 || 9999 < year then .error (.year year)
  else if month < 1 || 12 < month then .error .month
  else if day < 1 || daysIn year month < day then .error .day
  else .ok ⟨year, month, day⟩

/-- The number of days from the first day of year 1. -/
def ordinal (d : Date) : Nat :=
  let past := d.year - 1
  let months := (List.range d.month).drop 1
  past * 365 + past / 4 - past / 100 + past / 400 +
    months.foldl (fun days month => days + daysIn d.year month) 0 + (d.day - 1)

end Date

namespace Timestamp

/-- The time with the given parts.  The zone is checked before the day, and the
day before the time of the day. -/
def ofParts (year month day hour minute second micro : Nat) (zone : Option Int) :
    Except CalendarFault Timestamp := do
  let minutes := zone.getD 0
  if minutes ≤ -1440 || 1440 ≤ minutes then throw (.zone minutes)
  let date ← Date.ofParts year month day
  if 23 < hour then throw .hour
  if 59 < minute then throw .minute
  if 59 < second then throw .second
  return { date with hour, minute, second, micro, zone }

/-- The millionths of a second from the start of year 1, by the clock of the zone
that is the given number of minutes ahead. -/
def microsAhead (t : Timestamp) (zone : Int) : Int :=
  (((t.ordinal * 24 + t.hour) * 60 + t.minute : Int) - zone) * 60000000 +
    (t.second * 1000000 + t.micro : Int)

/-- Two times are equal: one instant if both have a zone, one reading of the clock
if neither has. -/
def same (s t : Timestamp) : Bool :=
  match s.zone, t.zone with
  | some y, some z => s.microsAhead y == t.microsAhead z
  | none, none => s == t
  | _, _ => false

end Timestamp

/-! ## Texts -/

/-- A number with zeros in front up to a width. -/
def padded (width n : Nat) : String :=
  let digits := toString n
  String.ofList (List.replicate (width - digits.length) '0') ++ digits

namespace Date

/-- Year, month and day with hyphens. -/
def iso (d : Date) : String := padded 4 d.year ++ "-" ++ padded 2 d.month ++ "-" ++ padded 2 d.day

/-- A day as a value in a message. -/
def literal (d : Date) : String :=
  "datetime.date(" ++ ", ".intercalate ([d.year, d.month, d.day].map toString) ++ ")"

end Date

namespace Timestamp

/-- Hours and minutes of a zone, with its sign. -/
def zoneText (minutes : Int) : String :=
  (if minutes < 0 then "-" else "+") ++ padded 2 (minutes.natAbs / 60) ++ ":" ++
    padded 2 (minutes.natAbs % 60)

/-- Day and time of the day with the given text between them.  The millionths of a
second are left out if there are none. -/
def iso (t : Timestamp) (between : String) : String :=
  t.toDate.iso ++ between ++ padded 2 t.hour ++ ":" ++ padded 2 t.minute ++ ":" ++
    padded 2 t.second ++ (if t.micro == 0 then "" else "." ++ padded 6 t.micro) ++
    (t.zone.map zoneText).getD ""

/-- Day and time of the day as digits, with a hyphen between them. -/
def compact (t : Timestamp) : String :=
  toString t.year ++ padded 2 t.month ++ padded 2 t.day ++ "-" ++ padded 2 t.hour ++
    padded 2 t.minute ++ padded 2 t.second

/-- A span of minutes as a value in a message: days, which may be negative, and
seconds, which are not. -/
def spanLiteral (minutes : Int) : String :=
  let days := minutes / 1440
  let seconds := minutes % 1440 * 60
  let parts :=
    (if days == 0 then [] else ["days=" ++ toString days]) ++
      (if seconds == 0 then [] else ["seconds=" ++ toString seconds])
  "datetime.timedelta(" ++ (if parts.isEmpty then "0" else ", ".intercalate parts) ++ ")"

/-- A zone as a value in a message. -/
def zoneLiteral (minutes : Int) : String :=
  if minutes == 0 then "datetime.timezone.utc"
  else "datetime.timezone(" ++ spanLiteral minutes ++ ")"

/-- A time as a value in a message.  Seconds and millionths are left out if there
are none. -/
def literal (t : Timestamp) : String :=
  let fine :=
    if t.micro != 0 then [t.second, t.micro] else if t.second != 0 then [t.second] else []
  let parts := ([t.year, t.month, t.day, t.hour, t.minute] ++ fine).map toString
  let zone := (t.zone.map fun z => ["tzinfo=" ++ zoneLiteral z]).getD []
  "datetime.datetime(" ++ ", ".intercalate (parts ++ zone) ++ ")"

end Timestamp

/-- The words for a fault of the calendar. -/
def CalendarFault.message : CalendarFault → String
  | .year n => "year " ++ toString n ++ " is out of range"
  | .month => "month must be in 1..12"
  | .day => "day is out of range for month"
  | .hour => "hour must be in 0..23"
  | .minute => "minute must be in 0..59"
  | .second => "second must be in 0..59"
  | .zone minutes =>
      "offset must be a timedelta strictly between -timedelta(hours=24) and " ++
        "timedelta(hours=24), not " ++ Timestamp.spanLiteral minutes ++ "."

end Bindery
