import Sqrl.Number.Shortest

/-!
The calendar date and the time of day of a second, counted from the start of 1970 in UTC.
-/
namespace Sqrl.Calendar

structure Date where
  year : Int
  month : Nat
  day : Nat
  deriving DecidableEq, Repr

/-- The date of a day counted from the first of January 1970. The years are taken to start in March,
so that the leap day is the last of its year, and are counted in periods of 400. -/
def dateOfDay (day : Int) : Date :=
  let shifted := day + 719468
  let inEra := (shifted % 146097).toNat
  let yearOfEra := (inEra - inEra / 1460 + inEra / 36524 - inEra / 146096) / 365
  let inYear := inEra - (365 * yearOfEra + yearOfEra / 4 - yearOfEra / 100)
  let month := (5 * inYear + 2) / 153
  let year := shifted / 146097 * 400 + yearOfEra
  { year := if month < 10 then year else year + 1
    month := if month < 10 then month + 3 else month - 9
    day := inYear - (153 * month + 2) / 5 + 1 }

def twoDigits (n : Nat) : String := if n < 10 then "0" ++ toString n else toString n

def textOfSecond (second : Int) : String :=
  let date := dateOfDay (second / 86400)
  let clock := (second % 86400).toNat
  String.ofList (intText date.year) ++ "-" ++ twoDigits date.month ++ "-" ++ twoDigits date.day ++
    "T" ++ twoDigits (clock / 3600) ++ ":" ++ twoDigits (clock / 60 % 60) ++ ":" ++
    twoDigits (clock % 60) ++ "Z"

inductive Fault where
  | notNumber
  /-- The reading does not fit 64 bits. -/
  | beyondClock
  /-- The year, counted from 1900, does not fit 32 bits. -/
  | beyondCalendar
  /-- The year itself does not fit 32 bits. -/
  | beyondYears
  deriving DecidableEq, Repr

/-- The date and the time of a clock reading as text. A fraction of a second does not count. -/
def timestamp (reading : Number) : Except Fault String :=
  match reading with
  | .float .nan => .error .notNumber
  | .float (.infinite _) => .error .beyondClock
  | reading =>
    let second := reading.floor
    let year := (dateOfDay (second / 86400)).year
    if second < -0x8000000000000000 ∨ 0x8000000000000000 ≤ second then .error .beyondClock
    else if year - 1900 < -0x80000000 ∨ 0x80000000 ≤ year - 1900 then .error .beyondCalendar
    else if 0x80000000 ≤ year then .error .beyondYears
    else .ok (textOfSecond second)

def Fault.message : Fault → String
  | .notNumber => "Invalid value NaN (not a number)"
  | .beyondClock => "timestamp out of range for platform time_t"
  | .beyondCalendar => "[Errno 75] Value too large for defined data type"
  | .beyondYears => "signed integer is greater than maximum"

end Sqrl.Calendar
