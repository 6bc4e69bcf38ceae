import HomeHub.Number.Decimal
import HomeHub.Text.Blank

/-!
# Instants in universal time

An instant is a count of seconds since 1970 and a count of nanoseconds, which reach beyond a second
in a leap second. `text` writes RFC 3339 in UTC with as few fraction digits as lose nothing.
`parseStrict?` reads that form; `parse?` also takes blanks between the parts, numbers with fewer
digits and signed years.
-/

namespace HomeHub

structure Timestamp where
  seconds : Int
  nanos : Nat
  deriving DecidableEq, Inhabited

namespace Timestamp

def before (a b : Timestamp) : Bool :=
  a.seconds < b.seconds || (a.seconds == b.seconds && a.nanos < b.nanos)

/-! ### Calendar -/

/-- Days from 1970-01-01 to a date of the Gregorian calendar, counted in eras of 400 years that
begin in March. -/
def daysOfDate (year : Int) (month day : Nat) : Int :=
  let y := if month ≤ 2 then year - 1 else year
  let era := y / 400
  let yearOfEra := y % 400
  let shifted : Int := (month + 9) % 12
  let dayOfYear := (153 * shifted + 2) / 5 + day - 1
  let dayOfEra := yearOfEra * 365 + yearOfEra / 4 - yearOfEra / 100 + dayOfYear
  era * 146097 + dayOfEra - 719468

/-- The year, month and day that lie this many days after 1970-01-01. -/
def dateOfDays (days : Int) : Int × Nat × Nat :=
  let z := days + 719468
  let era := z / 146097
  let dayOfEra := z % 146097
  let yearOfEra :=
    (dayOfEra - dayOfEra / 1460 + dayOfEra / 36524 - dayOfEra / 146096) / 365
  let dayOfYear := dayOfEra - (365 * yearOfEra + yearOfEra / 4 - yearOfEra / 100)
  let shifted := (5 * dayOfYear + 2) / 153
  let day := dayOfYear - (153 * shifted + 2) / 5 + 1
  let month := if shifted < 10 then shifted + 3 else shifted - 9
  let year := yearOfEra + era * 400
  (if month ≤ 2 then year + 1 else year, month.toNat, day.toNat)

def isLeapYear (year : Int) : Bool :=
  year % 4 == 0 && (year % 100 != 0 || year % 400 == 0)

def daysInMonth (year : Int) (month : Nat) : Nat :=
  if month = 2 then (if isLeapYear year then 29 else 28)
  else if month = 4 || month = 6 || month = 9 || month = 11 then 30
  else 31

def nanosPerSecond : Nat := 1000000000

/-- The years that dates reach over. -/
def yearInRange (year : Int) : Bool := -262143 ≤ year && year ≤ 262142

/-- The number of seconds in a day. -/
def secondsPerDay : Int := 86400

/-- Whether the date at an instant is one of those that dates reach over. -/
def inRange (t : Timestamp) : Bool := yearInRange (dateOfDays (t.seconds / secondsPerDay)).1

/-- The instant of a local time that is ahead of UTC by `offset` seconds. A sixtieth second counts
as a leap second. Dates are in range by the local time and by UTC. -/
def ofLocal? (year : Int) (month day hour minute second nanos : Nat) (offset : Int) :
    Option Timestamp :=
  if yearInRange year && 1 ≤ month && month ≤ 12 && 1 ≤ day && day ≤ daysInMonth year month &&
      hour ≤ 23 && minute ≤ 59 && second ≤ 60 then
    let leap := second = 60
    let clock : Int := hour * 3600 + minute * 60 + if leap then 59 else second
    let t : Timestamp := ⟨daysOfDate year month day * secondsPerDay + clock - offset,
      if leap then nanos + nanosPerSecond else nanos⟩
    if t.inRange then some t else none
  else none

/-! ### Writing -/

/-- A number with leading zeros up to a width. -/
def padded (width n : Nat) : String :=
  let ds := toString n
  String.ofList (List.replicate (width - ds.length) '0') ++ ds

def yearText (year : Int) : String :=
  if 0 ≤ year && year ≤ 9999 then padded 4 year.toNat
  else (if year < 0 then "-" else "+") ++ padded 4 year.natAbs

/-- No fraction, or three, six or nine digits of it. -/
def fractionText (nanos : Nat) : String :=
  if nanos = 0 then ""
  else if nanos % 1000000 = 0 then "." ++ padded 3 (nanos / 1000000)
  else if nanos % 1000 = 0 then "." ++ padded 6 (nanos / 1000)
  else "." ++ padded 9 nanos

/-- Date and time with the given mark of the time zone. -/
def textWith (zone : String) (t : Timestamp) : String :=
  let (year, month, day) := dateOfDays (t.seconds / secondsPerDay)
  let clock := (t.seconds % secondsPerDay).toNat
  let second := clock % 60 + t.nanos / nanosPerSecond
  yearText year ++ "-" ++ padded 2 month ++ "-" ++ padded 2 day ++ "T" ++
    padded 2 (clock / 3600) ++ ":" ++ padded 2 (clock / 60 % 60) ++ ":" ++ padded 2 second ++
    fractionText (t.nanos % nanosPerSecond) ++ zone

def text : Timestamp → String := textWith "Z"

/-- The form with a numeric time zone. -/
def offsetText : Timestamp → String := textWith "+00:00"

/-! ### Reading -/

def trimStart (cs : List Char) : List Char := cs.dropWhile isBlank

def isDigit (c : Char) : Bool := '0' ≤ c && c ≤ '9'

def digitsValue (cs : List Char) : Nat := cs.foldl (fun n c => n * 10 + (c.toNat - 48)) 0

/-- A number of at least `least` and at most `most` digits. -/
def number? (least most : Nat) (cs : List Char) : Option (Nat × List Char) :=
  let ds := (cs.take most).takeWhile isDigit
  if ds.length < least then none else some (digitsValue ds, cs.drop ds.length)

def char? (c : Char) : List Char → Option (List Char)
  | d :: r => if c = d then some r else none
  | [] => none

/-- The optional fraction of a second in nanoseconds; digits beyond the ninth are dropped. -/
def fraction? (cs : List Char) : Option (Nat × List Char) :=
  match cs with
  | '.' :: r =>
    let ds := (r.take 9).takeWhile isDigit
    if ds.isEmpty then none
    else some (digitsValue ds * Decimal.tenTo (9 - ds.length), (r.drop ds.length).dropWhile isDigit)
  | cs => some (0, cs)

/-- A time zone: `Z`, or a sign, two digits of hours, a separator and two digits of minutes. -/
def zone? (separator? : List Char → Option (List Char)) (cs : List Char) :
    Option (Int × List Char) :=
  let offset (negative : Bool) (r : List Char) : Option (Int × List Char) := do
    let (hours, r) ← number? 2 2 r
    let r ← separator? r
    let (minutes, r) ← number? 2 2 r
    if minutes ≤ 59 then
      let s : Int := hours * 3600 + minutes * 60
      return (if negative then -s else s, r)
    else none
  match cs with
  | 'Z' :: r => some (0, r)
  | 'z' :: r => some (0, r)
  | '+' :: r => offset false r
  | '-' :: r => offset true r
  | '\u2212' :: r => offset true r
  | _ => none

/-- The mark between date and time. -/
def dateEnd? : List Char → Option (List Char)
  | 'T' :: r => some r
  | 't' :: r => some r
  | ' ' :: r => some r
  | _ => none

/-- RFC 3339 to the letter. -/
def parseStrict? (s : String) : Option Timestamp := do
  let (year, r) ← number? 4 4 s.toList
  let (month, r) ← number? 2 2 (← char? '-' r)
  let (day, r) ← number? 2 2 (← char? '-' r)
  let (hour, r) ← number? 2 2 (← dateEnd? r)
  let (minute, r) ← number? 2 2 (← char? ':' r)
  let (second, r) ← number? 2 2 (← char? ':' r)
  let (nanos, r) ← fraction? r
  let (offset, r) ← zone? (char? ':') r
  if r.isEmpty && offset.natAbs ≤ 86340 then ofLocal? year month day hour minute second nanos offset
  else none

/-- A year of up to four digits, or of any length after a sign. -/
def signedYear? (cs : List Char) : Option (Int × List Char) :=
  match trimStart cs with
  | '-' :: r => (number? 1 r.length r).map fun (y, r) => (-Int.ofNat y, r)
  | '+' :: r => (number? 1 r.length r).map fun (y, r) => (Int.ofNat y, r)
  | cs => (number? 1 4 cs).map fun (y, r) => (Int.ofNat y, r)

/-- One or two digits after blanks. -/
def short? (cs : List Char) : Option (Nat × List Char) := number? 1 2 (trimStart cs)

/-- A separator that may stand between blanks. -/
def spaced? (c : Char) (cs : List Char) : Option (List Char) :=
  (char? c (trimStart cs)).map trimStart

/-- RFC 3339 with blanks and short numbers, and `UTC` as a time zone. -/
def parse? (s : String) : Option Timestamp := do
  let (year, r) ← signedYear? s.toList
  let (month, r) ← short? (← spaced? '-' r)
  let (day, r) ← short? (← spaced? '-' r)
  let (hour, r) ← short? (← dateEnd? r)
  let (minute, r) ← short? (← spaced? ':' r)
  let (second, r) ← short? (← spaced? ':' r)
  let (nanos, r) ← fraction? r
  let r := trimStart r
  let (offset, r) ←
    if (r.take 3).map Char.toUpper = ['U', 'T', 'C'] then some (0, r.drop 3)
    else zone? (fun r => some (r.dropWhile fun c => c == ':' || isBlank c)) r
  if (trimStart r).isEmpty && offset.natAbs < 86400 then
    ofLocal? year month day hour minute second nanos offset
  else none

end Timestamp

end HomeHub
