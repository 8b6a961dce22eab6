import Specimen.Pattern.Table
import Specimen.Random.Draw
import Specimen.Text.Digits
import Specimen.Text.Split

/-!
# Dates and times

Days are counted from the first of January 1970 in the calendar that repeats itself every 400 years.
-/

namespace Specimen

namespace Calendar

structure Date where
  year : Int
  month : Nat
  day : Nat
  deriving DecidableEq, Repr

structure Time where
  hour : Nat
  minute : Nat
  second : Nat
  deriving DecidableEq, Repr

def isLeap (year : Int) : Bool :=
  year % 4 = 0 && (year % 100 ≠ 0 || year % 400 = 0)

def daysInMonth (year : Int) (month : Nat) : Nat :=
  match month with
  | 2 => if isLeap year then 29 else 28
  | 4 | 6 | 9 | 11 => 30
  | _ => 31

namespace Date

/-- The years a date may have. -/
def minYear : Int := -262143

def maxYear : Int := 262142

def isValid (date : Date) : Bool :=
  decide (minYear ≤ date.year) && decide (date.year ≤ maxYear) &&
    decide (1 ≤ date.month) && decide (date.month ≤ 12) &&
    decide (1 ≤ date.day) && decide (date.day ≤ daysInMonth date.year date.month)

/-- The number of a day, with years that start in March so that a leap day is the last of its
year. -/
def toDays (date : Date) : Int :=
  let year := if date.month ≤ 2 then date.year - 1 else date.year
  let era := year / 400
  let yearOfEra := year % 400
  let monthFromMarch := (date.month + 9) % 12
  let dayOfYear : Int := (153 * monthFromMarch + 2) / 5 + date.day - 1
  era * 146097 + (yearOfEra * 365 + yearOfEra / 4 - yearOfEra / 100 + dayOfYear) - 719468

def ofDays (days : Int) : Date :=
  let shifted := days + 719468
  let era := shifted / 146097
  let dayOfEra := (shifted % 146097).toNat
  let yearOfEra := (dayOfEra - dayOfEra / 1460 + dayOfEra / 36524 - dayOfEra / 146096) / 365
  let dayOfYear := dayOfEra - (365 * yearOfEra + yearOfEra / 4 - yearOfEra / 100)
  let monthFromMarch := (5 * dayOfYear + 2) / 153
  let day := dayOfYear - (153 * monthFromMarch + 2) / 5 + 1
  let month := if monthFromMarch < 10 then monthFromMarch + 3 else monthFromMarch - 9
  let year := era * 400 + yearOfEra
  ⟨if month ≤ 2 then year + 1 else year, month, day⟩

end Date

namespace Time

def ofSeconds (seconds : Nat) : Time :=
  ⟨seconds / 3600, seconds / 60 % 60, seconds % 60⟩

/-- A second may be the sixtieth, for a leap second. -/
def isValid (time : Time) : Bool :=
  decide (time.hour ≤ 23) && decide (time.minute ≤ 59) && decide (time.second ≤ 60)

end Time

def padded (width n : Nat) : List Char :=
  let digits := Nat.toDigits 10 n
  List.replicate (width - digits.length) '0' ++ digits

/-- A date of a year from 0 to 9999. -/
def dateText (date : Date) : List Char :=
  padded 4 date.year.toNat ++ '-' :: padded 2 date.month ++ '-' :: padded 2 date.day

def timeText (time : Time) : List Char :=
  padded 2 time.hour ++ ':' :: padded 2 time.minute ++ ':' :: padded 2 time.second

def dateOf (seconds : Int) : Date :=
  Date.ofDays (seconds / 86400)

def timeOf (seconds : Int) : Time :=
  Time.ofSeconds (seconds % 86400).toNat

def instantText (seconds : Int) : List Char :=
  dateText (dateOf seconds) ++ 'T' :: timeText (timeOf seconds) ++ ['Z']

/-- The first second of the year 2000. -/
def firstInstant : Int := 946684800

/-- The first second of the year 2030. -/
def endInstant : Int := 1893456000

def drawInstant : Draw Int :=
  Draw.intBetween firstInstant (endInstant - 1)

def isSpace (c : Char) : Bool :=
  Pattern.spaceRanges.any fun range => decide (range.1 ≤ c.toNat) && decide (c.toNat ≤ range.2)

/-- A number of at least `least` digits at the start of a text, of which it takes up to `most`. -/
def number? (least most : Nat) (cs : List Char) : Option (Nat × List Char) :=
  let digits := (cs.take most).takeWhile Char.isDigit
  if digits.length < least then none
  else some (Text.decimalValue digits, cs.drop digits.length)

/-- A number of one or two digits, with blanks before it. -/
def looseNumber? (cs : List Char) : Option (Nat × List Char) :=
  number? 1 2 (cs.dropWhile isSpace)

/-- A year of up to four digits, or of any number of them after a sign. -/
def looseYear? (cs : List Char) : Option (Int × List Char) :=
  match cs.dropWhile isSpace with
  | '-' :: rest => (number? 1 rest.length rest).map fun (n, rest) => (-(n : Int), rest)
  | '+' :: rest => (number? 1 rest.length rest).map fun (n, rest) => ((n : Int), rest)
  | rest => (number? 1 4 rest).map fun (n, rest) => ((n : Int), rest)

/-- Reads a date, in which blanks may stand before each number. -/
def readDate? (cs : List Char) : Option Date := do
  let (year, cs) ← looseYear? cs
  let cs ← Text.mark? '-' cs
  let (month, cs) ← looseNumber? cs
  let cs ← Text.mark? '-' cs
  let (day, cs) ← looseNumber? cs
  let date : Date := ⟨year, month, day⟩
  if cs = [] ∧ date.isValid then some date else none

/-- Reads a time of day, in which blanks may stand before each number. -/
def readTime? (cs : List Char) : Option Time := do
  let (hour, cs) ← looseNumber? cs
  let cs ← Text.mark? ':' cs
  let (minute, cs) ← looseNumber? cs
  let cs ← Text.mark? ':' cs
  let (second, cs) ← looseNumber? cs
  let time : Time := ⟨hour, minute, second⟩
  if cs = [] ∧ time.isValid then some time else none

/-- The text after a fraction of a second, if one stands there. -/
def skipFraction? : List Char → Option (List Char)
  | '.' :: rest =>
    if (rest.takeWhile Char.isDigit).isEmpty then none else some (rest.dropWhile Char.isDigit)
  | cs => some cs

/-- The minutes by which local time is ahead, at the end of a text. -/
def readOffset? : List Char → Option Int
  | ['Z'] => some 0
  | ['z'] => some 0
  | sign :: rest => do
    let (hours, rest) ← number? 2 2 rest
    let rest ← Text.mark? ':' rest
    let (minutes, rest) ← number? 2 2 rest
    let total : Int := hours * 60 + minutes
    if rest ≠ [] ∨ 60 ≤ minutes ∨ 1440 ≤ total then none
    else if sign = '+' then some total
    else if sign = '-' ∨ sign = '\u2212' then some (-total)
    else none
  | [] => none

/-- Reads an instant: a date and a time of fixed widths, with the offset of local time. The answer is
in seconds, a leap second counting as the first of the next minute. -/
def readInstant? (cs : List Char) : Option Int := do
  let (year, cs) ← number? 4 4 cs
  let cs ← Text.mark? '-' cs
  let (month, cs) ← number? 2 2 cs
  let cs ← Text.mark? '-' cs
  let (day, cs) ← number? 2 2 cs
  let separator :: cs := cs | none
  let (hour, cs) ← number? 2 2 cs
  let cs ← Text.mark? ':' cs
  let (minute, cs) ← number? 2 2 cs
  let cs ← Text.mark? ':' cs
  let (second, cs) ← number? 2 2 cs
  let offset ← readOffset? (← skipFraction? cs)
  let date : Date := ⟨year, month, day⟩
  let time : Time := ⟨hour, minute, second⟩
  if ['T', 't', ' '].contains separator ∧ date.isValid ∧ time.isValid then
    some (date.toDays * 86400 + (hour * 3600 + minute * 60 + second) - offset * 60)
  else none

end Calendar

end Specimen
