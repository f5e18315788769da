import RouteBinding.Number.FloatText

/-!
# Dates and times

A date of the Gregorian calendar, and a moment: a date with a time of day and, if it is known, the
distance of its clock from universal time.
-/

namespace RouteBinding

open Number (padded)

/-- A day of the Gregorian calendar. -/
structure Date where
  year : Nat
  month : Nat
  day : Nat
deriving DecidableEq, Inhabited

/-- A time of a day. `offset` is the distance from universal time in minutes. -/
structure Moment where
  date : Date
  hour : Nat
  minute : Nat
  second : Nat
  micro : Nat
  offset : Option Int
deriving DecidableEq, Inhabited

namespace Date

/-- Whether a year has a 29 February. -/
def isLeap (year : Nat) : Bool :=
  year % 4 = 0 && (year % 100 ≠ 0 || year % 400 = 0)

/-- The count of days of a month. -/
def daysInMonth (year month : Nat) : Nat :=
  if month = 2 then (if isLeap year then 29 else 28)
  else if month ∈ [4, 6, 9, 11] then 30 else 31

/-- Whether the calendar of the years 1 to 9999 has this date. -/
def isValid (d : Date) : Bool :=
  1 ≤ d.year && d.year ≤ 9999 && 1 ≤ d.month && d.month ≤ 12
    && 1 ≤ d.day && d.day ≤ daysInMonth d.year d.month

/-- The date as `YYYY-MM-DD`. -/
def text (d : Date) : String :=
  padded 4 d.year ++ "-" ++ padded 2 d.month ++ "-" ++ padded 2 d.day

/-- The count of days before a date since the beginning of the year 1. -/
def dayNumber (d : Date) : Nat :=
  let y := d.year - 1
  let months := (List.range (d.month - 1)).foldl (fun n m => n + daysInMonth d.year (m + 1)) 0
  y * 365 + y / 4 - y / 100 + y / 400 + months + d.day

/-- The literal form of a date. -/
def literal (d : Date) : String :=
  s!"datetime.date({d.year}, {d.month}, {d.day})"

end Date

namespace Moment

/-- Whether the date and the time of day exist and the offset is less than a day. -/
def isValid (m : Moment) : Bool :=
  m.date.isValid && m.hour < 24 && m.minute < 60 && m.second < 60 && m.micro < 1000000
    && m.offset.all fun minutes => minutes.natAbs < 24 * 60

/-- An offset as `+HH:MM`. -/
def offsetText (minutes : Int) : String :=
  (if minutes < 0 then "-" else "+") ++ padded 2 (minutes.natAbs / 60) ++ ":"
    ++ padded 2 (minutes.natAbs % 60)

/-- The moment as `YYYY-MM-DD`, the separator, `HH:MM:SS`, the microseconds if there are any, and
the offset if it is known. -/
def text (sep : String) (m : Moment) : String :=
  m.date.text ++ sep ++ padded 2 m.hour ++ ":" ++ padded 2 m.minute ++ ":" ++ padded 2 m.second
    ++ (if m.micro = 0 then "" else "." ++ padded 6 m.micro)
    ++ (m.offset.map offsetText).getD ""

/-- The literal form of an offset: whole days, rounded down, and the seconds that remain. -/
def offsetLiteral (minutes : Int) : String :=
  let days := minutes.fdiv (24 * 60)
  let seconds := minutes.fmod (24 * 60) * 60
  if minutes = 0 then "datetime.timezone.utc"
  else if days = 0 then s!"datetime.timezone(datetime.timedelta(seconds={seconds}))"
  else if seconds = 0 then s!"datetime.timezone(datetime.timedelta(days={days}))"
  else s!"datetime.timezone(datetime.timedelta(days={days}, seconds={seconds}))"

/-- The literal form of a moment; seconds and microseconds are left out from the end while they
are zero. -/
def literal (m : Moment) : String :=
  let seconds :=
    if m.micro ≠ 0 then s!", {m.second}, {m.micro}"
    else if m.second ≠ 0 then s!", {m.second}"
    else ""
  let zone := (m.offset.map fun minutes => ", tzinfo=" ++ offsetLiteral minutes).getD ""
  let date := s!"{m.date.year}, {m.date.month}, {m.date.day}, {m.hour}, {m.minute}"
  "datetime.datetime(" ++ date ++ seconds ++ zone ++ ")"

/-- The moment on the clock of universal time, in microseconds, if its offset is known. -/
def instant? (m : Moment) : Option Int :=
  m.offset.map fun minutes =>
    (((m.date.dayNumber * 24 + m.hour) * 60 + m.minute - minutes) * 60 + m.second) * 1000000
      + m.micro

end Moment

end RouteBinding
