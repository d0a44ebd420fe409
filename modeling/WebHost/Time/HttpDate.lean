import WebHost.Number.Numeral
import WebHost.Text.Cut
import WebHost.Time.Civil
import WebHost.Time.Duration

/-!
# Dates in header fields

A date is written in one form, such as `Sun, 06 Nov 1994 08:49:37 GMT`, and read in that form or
one of two older ones. Only the years 1970 to 9999 have a written form, and a text whose weekday
or day of the month does not exist is no date.
-/

set_option autoImplicit false

namespace WebHost.HttpDate

/-- A time stamp: seconds since the start of 1970, possibly negative, and nanoseconds. -/
structure Timestamp where
  seconds : Int
  nanos : Nat
  deriving DecidableEq, Repr, Inhabited

/-- Why a time has no written form. -/
inductive Fault where
  | beforeEpoch (gap : Duration)
  | afterYear9999
  deriving DecidableEq, Repr

/-- The wording of a fault. -/
def Fault.message : Fault → String
  | .beforeEpoch gap =>
    "all times should be after the epoch: SystemTimeError(" ++ gap.text ++ ")"
  | .afterYear9999 => "date must be before year 9999"

/-- The first second of the year 10000. -/
def endOfYears : Int := 253402300800

/-- The written form of a count of seconds. -/
def textOfSeconds (seconds : Int) : String :=
  let t := DateTime.ofSeconds seconds
  CivilDate.weekdayName (CivilDate.weekday (seconds / 86400)) ++ ", " ++
    Numeral.twoDigits t.date.day ++ " " ++ CivilDate.monthName t.date.month ++ " " ++
    Numeral.padded 4 t.date.year.toNat ++ " " ++ Numeral.twoDigits t.hour ++ ":" ++
    Numeral.twoDigits t.minute ++ ":" ++ Numeral.twoDigits t.second ++ " GMT"

/-- The written form of a time stamp; fractions of a second are dropped. -/
def text (t : Timestamp) : Except Fault String :=
  if t.seconds < 0 then
    let gap : Nat := (-t.seconds).toNat
    if h : t.nanos = 0 then .error (.beforeEpoch (.ofSeconds gap))
    else .error (.beforeEpoch ⟨gap - 1, ⟨1000000000 - t.nanos, by omega⟩⟩)
  else if endOfYears ≤ t.seconds then .error .afterYear9999
  else .ok (textOfSeconds t.seconds)

/-- The fields of a date as read, before it is known to exist. -/
structure Fields where
  weekday : Nat
  year : Nat
  month : Nat
  day : Nat
  hour : Nat
  minute : Nat
  second : Nat

/-- The seconds of a date that exists. -/
def Fields.seconds? (f : Fields) : Option Int :=
  if f.second < 60 ∧ f.minute < 60 ∧ f.hour < 24 ∧ 0 < f.day ∧ f.day < 32 ∧ 1970 ≤ f.year ∧
      f.year ≤ 9999 then
    let date : CivilDate := ⟨f.year, f.month, f.day⟩
    let t : DateTime := ⟨date, f.hour, f.minute, f.second⟩
    let seconds := t.toSeconds
    if DateTime.ofSeconds seconds = t ∧ CivilDate.weekday (seconds / 86400) = f.weekday then
      some seconds
    else none
  else none

/-- Reads a row of decimal digits. -/
def digits? (text : List Char) : Option Nat := Numeral.value? 10 text

/-- The place of a name among names, counted from zero. -/
def indexOf? (names : List String) (name : List Char) : Option Nat :=
  names.findIdx? (·.toList = name)

/-- Names in the form they take in a date. -/
def framed (before : String) (width : Nat) (names : List String) (after : String) : List String :=
  names.map fun n => before ++ String.ofList (n.toList.take width) ++ after

/-- The characters of a text from one place up to another. -/
def slice (text : List Char) (start stop : Nat) : List Char := (text.take stop).drop start

/-- Whether the character at a place is the given one. -/
def isAt (text : List Char) (place : Nat) (c : Char) : Bool := text[place]? = some c

/-- Reads `Sun, 06 Nov 1994 08:49:37 GMT`. -/
def readFixed (s : List Char) : Option Fields := do
  guard (s.length = 29 && slice s 25 29 = " GMT".toList && isAt s 16 ' ' && isAt s 19 ':' &&
    isAt s 22 ':')
  return {
    second := ← digits? (slice s 23 25), minute := ← digits? (slice s 20 22)
    hour := ← digits? (slice s 17 19), day := ← digits? (slice s 5 7)
    month := (← indexOf? (framed " " 3 CivilDate.monthNames " ") (slice s 7 12)) + 1
    year := ← digits? (slice s 12 16)
    weekday := ← indexOf? (framed "" 3 CivilDate.weekdayNames ", ") (slice s 0 5) }

/-- Reads `Sunday, 06-Nov-94 08:49:37 GMT`; two-digit years below 70 belong to the 2000s. -/
def readLong (s : List Char) : Option Fields := do
  let (weekday, s) ← (CivilDate.weekdayNames.zipIdx).findSome? fun (name, i) =>
    (Text.after? (name ++ ", ").toList s).map (i, ·)
  guard (s.length = 22 && isAt s 12 ':' && isAt s 15 ':' && slice s 18 22 = " GMT".toList)
  let year ← digits? (slice s 7 9)
  return {
    second := ← digits? (slice s 16 18), minute := ← digits? (slice s 13 15)
    hour := ← digits? (slice s 10 12), day := ← digits? (slice s 0 2)
    month := (← indexOf? (framed "-" 3 CivilDate.monthNames "-") (slice s 2 7)) + 1
    year := if year < 70 then year + 2000 else year + 1900
    weekday }

/-- Reads `Sun Nov  6 08:49:37 1994`; a day of one digit has a blank before it. -/
def readPlain (s : List Char) : Option Fields := do
  guard (s.length = 24 && isAt s 10 ' ' && isAt s 13 ':' && isAt s 16 ':' && isAt s 19 ' ')
  return {
    second := ← digits? (slice s 17 19), minute := ← digits? (slice s 14 16)
    hour := ← digits? (slice s 11 13)
    day := ← digits? (if isAt s 8 ' ' then slice s 9 10 else slice s 8 10)
    month := (← indexOf? (framed "" 3 CivilDate.monthNames " ") (slice s 4 8)) + 1
    year := ← digits? (slice s 20 24)
    weekday := ← indexOf? (framed "" 3 CivilDate.weekdayNames " ") (slice s 0 4) }

/-- Reads a date: the seconds since the start of 1970. The first form that fits decides. -/
def parse? (s : String) : Option Int :=
  if s.toList.all (·.toNat < 0x80) then
    let text := Text.trim s.toList
    ((readFixed text).or ((readLong text).or (readPlain text))).bind Fields.seconds?
  else none

end WebHost.HttpDate
