import SdkEvidence.Text.Blank

/-!
# Timestamps

A timestamp is a date and a time of day in universal time, with nanoseconds. It is written with
as few groups of three fraction digits as it needs. Reading also takes other distances to
universal time, missing zeros, and blanks between the parts.
-/
namespace SdkEvidence

/-- How many days a month has. -/
def daysInMonth (year : Int) (month : Nat) : Nat :=
  if month = 2 then (if year % 4 = 0 ∧ (year % 100 ≠ 0 ∨ year % 400 = 0) then 29 else 28)
  else if month = 4 ∨ month = 6 ∨ month = 9 ∨ month = 11 then 30
  else 31

/-- Whether fields name a moment. A minute may have a sixty-first second. -/
def isMoment (year : Int) (month day hour minute second nanosecond : Nat) : Bool :=
  decide (-262143 ≤ year ∧ year ≤ 262142 ∧ 1 ≤ month ∧ month ≤ 12 ∧ 1 ≤ day
    ∧ day ≤ daysInMonth year month ∧ hour ≤ 23 ∧ minute ≤ 59 ∧ second ≤ 60
    ∧ nanosecond < 1000000000)

/-- A moment in universal time. -/
structure Timestamp where
  year : Int
  month : Nat
  day : Nat
  hour : Nat
  minute : Nat
  second : Nat
  nanosecond : Nat
  valid : isMoment year month day hour minute second nanosecond = true
  deriving DecidableEq

namespace Timestamp

/-- The timestamp with the given fields, if they name a moment. -/
def ofFields? (year : Int) (month day hour minute second nanosecond : Nat) : Option Timestamp :=
  if valid : isMoment year month day hour minute second nanosecond = true then
    some { year, month, day, hour, minute, second, nanosecond, valid }
  else none

/-- The start of the epoch. -/
def epoch : Timestamp :=
  { year := 1970, month := 1, day := 1, hour := 0, minute := 0, second := 0, nanosecond := 0
    valid := by decide }

/-- The year, month and day of a day counted from the first of March of the year zero. Four hundred
years are a cycle of 146097 days, and a year starts in March, so that a leap day is its last. -/
def dateOfDay (day : Nat) : Int × Nat × Nat :=
  let inCycle := day % 146097
  let yearOfCycle := (inCycle - inCycle / 1460 + inCycle / 36524 - inCycle / 146096) / 365
  let inYear := inCycle - (365 * yearOfCycle + yearOfCycle / 4 - yearOfCycle / 100)
  let fromMarch := (5 * inYear + 2) / 153
  let month := if fromMarch < 10 then fromMarch + 3 else fromMarch - 9
  let year := yearOfCycle + 400 * (day / 146097) + (if month ≤ 2 then 1 else 0)
  (year, month, inYear - (153 * fromMarch + 2) / 5 + 1)

/-- The moment a number of seconds after the start of the epoch. -/
def afterEpoch (seconds nanosecond : Nat) : Timestamp :=
  let (year, month, day) := dateOfDay (seconds / 86400 + 719468)
  let inDay := seconds % 86400
  (ofFields? year month day (inDay / 3600) (inDay / 60 % 60) (inDay % 60) nanosecond).getD epoch

/-- A number with at least `width` digits. -/
def padded (width n : Nat) : String :=
  let digits := Nat.toDigits 10 n
  String.ofList (List.replicate (width - digits.length) '0' ++ digits)

/-- A year with four digits, or with a sign where it needs one. -/
def yearText (year : Int) : String :=
  if 0 ≤ year ∧ year ≤ 9999 then padded 4 year.toNat
  else (if year < 0 then "-" else "+") ++ padded 4 year.natAbs

/-- The fraction of a second. -/
def fractionText (nanosecond : Nat) : String :=
  if nanosecond = 0 then ""
  else if nanosecond % 1000000 = 0 then "." ++ padded 3 (nanosecond / 1000000)
  else if nanosecond % 1000 = 0 then "." ++ padded 6 (nanosecond / 1000)
  else "." ++ padded 9 nanosecond

/-- The standard text. -/
def text (t : Timestamp) : String :=
  yearText t.year ++ "-" ++ padded 2 t.month ++ "-" ++ padded 2 t.day ++ "T"
    ++ padded 2 t.hour ++ ":" ++ padded 2 t.minute ++ ":" ++ padded 2 t.second
    ++ fractionText t.nanosecond ++ "Z"

/-- The text for people. -/
def readable (t : Timestamp) : String :=
  yearText t.year ++ "-" ++ padded 2 t.month ++ "-" ++ padded 2 t.day ++ " "
    ++ padded 2 t.hour ++ ":" ++ padded 2 t.minute ++ ":" ++ padded 2 t.second ++ " UTC"

/-- The text in file names. -/
def stamp (t : Timestamp) : String :=
  yearText t.year ++ padded 2 t.month ++ padded 2 t.day ++ "-"
    ++ padded 2 t.hour ++ padded 2 t.minute ++ padded 2 t.second

/-- The day after a date. -/
def nextDay (year : Int) (month day : Nat) : Int × Nat × Nat :=
  if day < daysInMonth year month then (year, month, day + 1)
  else if month < 12 then (year, month + 1, 1)
  else (year + 1, 1, 1)

/-- The day before a date. -/
def dayBefore (year : Int) (month day : Nat) : Int × Nat × Nat :=
  if 1 < day then (year, month, day - 1)
  else if 1 < month then (year, month - 1, daysInMonth year (month - 1))
  else (year - 1, 12, 31)

/-- The number of up to `width` digits at the start of a text. -/
def readNumber (width : Nat) (text : List Char) : Option (Nat × List Char) :=
  let digits := (text.take width).takeWhile Char.isDigit
  if digits.isEmpty then none
  else some (digits.foldl (fun n c => n * 10 + (c.toNat - 48)) 0, text.drop digits.length)

/-- A number after blanks. -/
def readField (width : Nat) (text : List Char) : Option (Nat × List Char) :=
  readNumber width (Text.trimStart text)

/-- A year: four digits, or a sign with any number of them. -/
def readYear (text : List Char) : Option (Int × List Char) :=
  match Text.trimStart text with
  | '-' :: rest => (readNumber rest.length rest).map fun (n, rest) => (-(n : Int), rest)
  | '+' :: rest => (readNumber rest.length rest).map fun (n, rest) => ((n : Int), rest)
  | rest => (readNumber 4 rest).map fun (n, rest) => ((n : Int), rest)

/-- A separator that may have blanks before it. -/
def readSeparator (separator : Char) (text : List Char) : Option (List Char) :=
  match Text.trimStart text with
  | c :: rest => if c = separator then some rest else none
  | [] => none

/-- The fraction of a second, of which nine digits count. -/
def readFraction (text : List Char) : Option (Nat × List Char) :=
  match text with
  | '.' :: rest => do
      let digits := (rest.take 9).takeWhile Char.isDigit
      let (n, rest) ← readNumber 9 rest
      some (n * Nat.pow 10 (9 - digits.length), rest.dropWhile Char.isDigit)
  | rest => some (0, rest)

/-- Two digits. -/
def readTwo (text : List Char) : Option (Nat × List Char) :=
  match text with
  | a :: b :: rest =>
      if a.isDigit && b.isDigit then some ((a.toNat - 48) * 10 + (b.toNat - 48), rest) else none
  | _ => none

/-- The distance to universal time in minutes, and whether the time lies before it. -/
def readOffset (text : List Char) : Option (Bool × Nat × List Char) :=
  let stated (west : Bool) (rest : List Char) : Option (Bool × Nat × List Char) := do
    let (hours, rest) ← readTwo rest
    let (minutes, rest) ← readTwo (rest.dropWhile fun c => c == ':' || Text.isBlank c)
    if 59 < minutes ∨ 23 < hours then none else some (west, hours * 60 + minutes, rest)
  match text with
  | 'Z' :: rest | 'z' :: rest => some (false, 0, rest)
  | '+' :: rest => stated false rest
  | '-' :: rest => stated true rest
  | '−' :: rest => stated true rest
  | a :: b :: c :: rest =>
      if [a, b, c].map Char.toLower = ['u', 't', 'c'] then some (false, 0, rest) else none
  | _ => none

/-- A moment whose clock is a number of minutes ahead of universal time, or behind it. -/
def shifted (west : Bool) (minutes : Nat) (year : Int)
    (month day hour minute second nanosecond : Nat) : Option Timestamp :=
  let clock : Int := hour * 60 + minute
  let utc : Int := if west then clock + minutes else clock - minutes
  let (year, month, day) :=
    if utc < 0 then dayBefore year month day
    else if 1440 ≤ utc then nextDay year month day
    else (year, month, day)
  let inDay := (utc % 1440).toNat
  ofFields? year month day (inDay / 60) (inDay % 60) second nanosecond

/-- The moment that a text stands for. -/
def read? (text : String) : Option Timestamp := do
  let (year, rest) ← readYear text.toList
  let (month, rest) ← readField 2 (← readSeparator '-' rest)
  let (day, rest) ← readField 2 (← readSeparator '-' rest)
  let rest ← match rest with
    | c :: rest => if c = 'T' ∨ c = 't' ∨ c = ' ' then some rest else none
    | [] => none
  let (hour, rest) ← readField 2 rest
  let (minute, rest) ← readField 2 (← readSeparator ':' rest)
  let (second, rest) ← readField 2 (← readSeparator ':' rest)
  let (nanosecond, rest) ← readFraction rest
  let (west, minutes, rest) ← readOffset (Text.trimStart rest)
  if !(Text.trimStart rest).isEmpty then none
  else if !isMoment year month day hour minute second nanosecond then none
  else shifted west minutes year month day hour minute second nanosecond

end Timestamp
end SdkEvidence
