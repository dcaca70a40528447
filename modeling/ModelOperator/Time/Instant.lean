import ModelOperator.Duration
import ModelOperator.Json.Parser
import ModelOperator.Text.Blank

/-!
# Points in time and their RFC 3339 text

    An instant is a day counted from 1970-01-01, a second of that day and nanoseconds.
    A leap second is kept as the second before it with more than a second's
    nanoseconds, so that it reads and writes as `:60`.

    * `Instant.read` accepts the relaxed form: a blank, `T` or `t` between date and time,
      blanks around numbers, one or two digits, any offset below a day, `Z`, `z` or `UTC`;
    * `Instant.text` writes UTC with a `Z` and the fraction that a `Fraction` asks for. -/

namespace ModelOperator

/-- A point in time, in UTC. -/
structure Instant where
  day : Int
  second : Nat
  nano : Nat
  deriving DecidableEq, Repr, Inhabited

/-- How many digits of a fraction are written. -/
inductive Fraction where
  | none
  | micros
  | shortest
  deriving DecidableEq, Repr

/-- A date of the Gregorian calendar. -/
structure Date where
  year : Int
  month : Nat
  day : Nat
  deriving DecidableEq, Repr

namespace Date

/-- Whether February has 29 days. -/
def isLeap (year : Int) : Bool :=
  year % 4 == 0 && (year % 100 != 0 || year % 400 == 0)

/-- The number of days of a month. -/
def daysInMonth (year : Int) (month : Nat) : Nat :=
  if month = 2 then if isLeap year then 29 else 28
  else if month = 4 ∨ month = 6 ∨ month = 9 ∨ month = 11 then 30
  else 31

/-- Days from 1970-01-01, counting years from March in cycles of 400. -/
def toDay (d : Date) : Int :=
  let y := if d.month ≤ 2 then d.year - 1 else d.year
  let cycle := y.fdiv 400
  let yearOfCycle := y - cycle * 400
  let monthFromMarch : Int := if d.month ≤ 2 then d.month + 9 else (d.month : Int) - 3
  let dayOfYear := (153 * monthFromMarch + 2) / 5 + d.day - 1
  let dayOfCycle := yearOfCycle * 365 + yearOfCycle / 4 - yearOfCycle / 100 + dayOfYear
  cycle * 146097 + dayOfCycle - 719468

/-- The date of a day counted from 1970-01-01. -/
def ofDay (n : Int) : Date :=
  let z := n + 719468
  let cycle := z.fdiv 146097
  let dayOfCycle := z - cycle * 146097
  let yearOfCycle :=
    (dayOfCycle - dayOfCycle / 1460 + dayOfCycle / 36524 - dayOfCycle / 146096) / 365
  let dayOfYear := dayOfCycle - (365 * yearOfCycle + yearOfCycle / 4 - yearOfCycle / 100)
  let monthFromMarch := (5 * dayOfYear + 2) / 153
  let day := dayOfYear - (153 * monthFromMarch + 2) / 5 + 1
  let month := if monthFromMarch < 10 then monthFromMarch + 3 else monthFromMarch - 9
  let year := yearOfCycle + cycle * 400 + (if month ≤ 2 then 1 else 0)
  ⟨year, month.toNat, day.toNat⟩

/-- The years that dates may have. -/
def yearInRange (year : Int) : Bool := decide (-262143 ≤ year) && decide (year ≤ 262142)

end Date

namespace Instant

/-- Seconds of a day. -/
def daySeconds : Nat := 86400

/-- The order of time. -/
def before (a b : Instant) : Bool :=
  decide (a.day < b.day) || (a.day == b.day &&
    (decide (a.second < b.second) || (a.second == b.second && decide (a.nano < b.nano))))

/-- A number of seconds later, or earlier when negative. -/
def addSeconds (t : Instant) (n : Int) : Instant :=
  let total : Int := t.second + n
  { t with
    day := t.day + total.fdiv daySeconds
    second := (total.fmod daySeconds).toNat }

/-- Two digits. -/
def twoDigits (n : Nat) : List Char := Duration.padded 2 n

/-- A year: four digits, or a sign and at least five places outside 0 to 9999. -/
def yearText (year : Int) : List Char :=
  if 0 ≤ year ∧ year ≤ 9999 then Duration.padded 4 year.natAbs
  else (if year < 0 then '-' else '+') :: Duration.padded 4 year.natAbs

/-- The fraction of a second with its point. -/
def fractionText (f : Fraction) (nano : Nat) : List Char :=
  match f with
  | .none => []
  | .micros => '.' :: Duration.padded 6 (nano / 1000)
  | .shortest =>
    if nano = 0 then []
    else if nano % 1000000 = 0 then '.' :: Duration.padded 3 (nano / 1000000)
    else if nano % 1000 = 0 then '.' :: Duration.padded 6 (nano / 1000)
    else '.' :: Duration.padded 9 nano

/-- The text of an instant. -/
def chars (f : Fraction) (t : Instant) : List Char :=
  let date := Date.ofDay t.day
  let leap := Duration.second ≤ t.nano
  let nano := if leap then t.nano - Duration.second else t.nano
  let sec := t.second % 60 + (if leap then 1 else 0)
  yearText date.year ++ '-' :: twoDigits date.month ++ '-' :: twoDigits date.day ++
  'T' :: twoDigits (t.second / 3600) ++ ':' :: twoDigits (t.second / 60 % 60) ++
  ':' :: twoDigits sec ++ fractionText f nano ++ ['Z']

/-- The text of an instant. -/
def text (f : Fraction) (t : Instant) : String := String.ofList (t.chars f)

/-- At most `width` digits, at least one, behind any blanks: their number, how many they
    are, and the rest. -/
def readNumber (width : Nat) (cs : List Char) : Option (Nat × Nat × List Char) :=
  let ds := (cs.take width).takeWhile fun c => (Json.digitValue? c).isSome
  if ds.isEmpty then none
  else some (Json.digitsValue ds, ds.length, cs.drop ds.length)

/-- A field of the text: blanks, then digits. -/
def readField (width : Nat) (cs : List Char) : Option (Nat × List Char) := do
  let (n, _, rest) ← readNumber width (Blank.trimStartChars cs)
  some (n, rest)

/-- A field behind a mark that may have blanks in front. -/
def readMarked (mark : Char) (width : Nat) (cs : List Char) : Option (Nat × List Char) :=
  match Blank.trimStartChars cs with
  | c :: rest => if c = mark then readField width rest else none
  | [] => none

/-- A year: four digits at most, or any number behind a sign. -/
def readYear (cs : List Char) : Option (Int × List Char) :=
  match Blank.trimStartChars cs with
  | '-' :: rest => do
    let (n, _, tail) ← readNumber rest.length rest
    some (-(n : Int), tail)
  | '+' :: rest => do
    let (n, _, tail) ← readNumber rest.length rest
    some ((n : Int), tail)
  | cs => do
    let (n, _, tail) ← readNumber 4 cs
    some ((n : Int), tail)

/-- An optional fraction of a second, in nanoseconds; digits past the ninth are dropped. -/
def readFraction (cs : List Char) : Option (Nat × List Char) :=
  match cs with
  | '.' :: rest => do
    let (n, count, tail) ← readNumber 9 rest
    some (n * Nat.pow 10 (9 - count), (Json.spanDigits tail).2)
  | _ => some (0, cs)

/-- Exactly two digits. -/
def readPair (cs : List Char) : Option (Nat × List Char) :=
  match cs with
  | a :: b :: rest => do
    let a ← Json.digitValue? a
    let b ← Json.digitValue? b
    some (a * 10 + b, rest)
  | _ => none

/-- The offset from UTC in seconds. -/
def readOffset (cs : List Char) : Option (Int × List Char) :=
  let signed (sign : Int) (cs : List Char) : Option (Int × List Char) := do
    let (hours, rest) ← readPair cs
    let (minutes, rest) ← readPair (rest.dropWhile fun c => c == ':' || isBlankChar c)
    if 60 ≤ minutes then none
    else some (sign * (hours * 3600 + minutes * 60 : Nat), rest)
  match cs with
  | 'Z' :: rest => some (0, rest)
  | 'z' :: rest => some (0, rest)
  | '+' :: rest => signed 1 rest
  | '-' :: rest => signed (-1) rest
  | '\u2212' :: rest => signed (-1) rest
  | u :: t :: c :: rest =>
    if u.toUpper = 'U' ∧ t.toUpper = 'T' ∧ c.toUpper = 'C' then some (0, rest) else none
  | _ => none

/-- The instant of a date, a time of day and an offset, if they exist in the calendar and
    the year is in range in UTC as well. -/
def ofFields? (date : Date) (hour minute sec nano : Nat) (offset : Int) : Option Instant :=
  let dateOk := Date.yearInRange date.year && decide (1 ≤ date.month) && decide (date.month ≤ 12) &&
    decide (1 ≤ date.day) && decide (date.day ≤ Date.daysInMonth date.year date.month)
  let timeOk := decide (hour < 24) && decide (minute < 60) && decide (sec ≤ 60)
  let offsetOk := decide (-86400 < offset) && decide (offset < 86400)
  if dateOk && timeOk && offsetOk then
    let (sec, nano) := if sec = 60 then (59, nano + Duration.second) else (sec, nano)
    let t : Instant := ⟨date.toDay, hour * 3600 + minute * 60 + sec, nano⟩
    let utc := t.addSeconds (-offset)
    if Date.yearInRange (Date.ofDay utc.day).year then some utc else none
  else none

/-- Reads a time in the relaxed RFC 3339 form. -/
def readChars (cs : List Char) : Option Instant := do
  let (year, cs) ← readYear cs
  let (month, cs) ← readMarked '-' 2 cs
  let (day, cs) ← readMarked '-' 2 cs
  let cs ← match cs with
    | 'T' :: rest => some rest
    | 't' :: rest => some rest
    | ' ' :: rest => some rest
    | _ => none
  let (hour, cs) ← readField 2 cs
  let (minute, cs) ← readMarked ':' 2 cs
  let (sec, cs) ← readMarked ':' 2 cs
  let (nano, cs) ← readFraction cs
  let (offset, cs) ← readOffset (Blank.trimStartChars cs)
  if (Blank.trimStartChars cs).isEmpty then ofFields? ⟨year, month, day⟩ hour minute sec nano offset
  else none

/-- Reads a time in the relaxed RFC 3339 form. -/
def read (s : String) : Option Instant := readChars s.toList

end Instant

end ModelOperator
