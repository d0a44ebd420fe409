/-!
# Dates of the civil calendar

Seconds since 1970 are split into a day and a time of day, and a day into year, month and day of
the month in the Gregorian calendar. A cycle of the calendar is 400 years or 146097 days; years are
counted from March, so that the leap day is the last one of its year.
-/

set_option autoImplicit false

namespace WebHost

/-- A day of the Gregorian calendar. -/
structure CivilDate where
  year : Int
  month : Nat
  day : Nat
  deriving DecidableEq, Repr

namespace CivilDate

/-- The date of a day counted from 1 January 1970. -/
def ofDays (days : Int) : CivilDate :=
  let shifted := days + 719468
  let cycle := shifted / 146097
  let inCycle := (shifted % 146097).toNat
  let year := (inCycle - inCycle / 1460 + inCycle / 36524 - inCycle / 146096) / 365
  let inYear := inCycle - (365 * year + year / 4 - year / 100)
  let fromMarch := (5 * inYear + 2) / 153
  let day := inYear - (153 * fromMarch + 2) / 5 + 1
  let month := if fromMarch < 10 then fromMarch + 3 else fromMarch - 9
  ⟨cycle * 400 + year + (if month ≤ 2 then 1 else 0), month, day⟩

/-- The day, counted from 1 January 1970, of a date. -/
def toDays (d : CivilDate) : Int :=
  let year := if d.month ≤ 2 then d.year - 1 else d.year
  let cycle := year / 400
  let inCycle := (year % 400).toNat
  let fromMarch := if 2 < d.month then d.month - 3 else d.month + 9
  let inYear := (153 * fromMarch + 2) / 5 + d.day - 1
  cycle * 146097 + (inCycle * 365 + inCycle / 4 - inCycle / 100 + inYear : Nat) - 719468

/-- The day of the week of a day counted from 1 January 1970: 0 is Monday. -/
def weekday (days : Int) : Nat := ((days + 3) % 7).toNat

/-- The short names of the months. -/
def monthNames : List String :=
  ["Jan", "Feb", "Mar", "Apr", "May", "Jun", "Jul", "Aug", "Sep", "Oct", "Nov", "Dec"]

/-- The names of the days of the week, Monday first. -/
def weekdayNames : List String :=
  ["Monday", "Tuesday", "Wednesday", "Thursday", "Friday", "Saturday", "Sunday"]

/-- The short name of a month counted from one. -/
def monthName (month : Nat) : String := monthNames.getD (month - 1) ""

/-- The first three letters of the name of a day of the week. -/
def weekdayName (weekday : Nat) : String :=
  String.ofList ((weekdayNames.getD weekday "").toList.take 3)

end CivilDate

/-- A date with a time of day. -/
structure DateTime where
  date : CivilDate
  hour : Nat
  minute : Nat
  second : Nat
  deriving DecidableEq, Repr

namespace DateTime

/-- The date and time of a count of seconds from the start of 1970. -/
def ofSeconds (seconds : Int) : DateTime :=
  let inDay := (seconds % 86400).toNat
  ⟨CivilDate.ofDays (seconds / 86400), inDay / 3600, inDay / 60 % 60, inDay % 60⟩

/-- The count of seconds from the start of 1970 at a date and time. -/
def toSeconds (t : DateTime) : Int :=
  t.date.toDays * 86400 + (t.hour * 3600 + t.minute * 60 + t.second : Nat)

end DateTime

end WebHost
