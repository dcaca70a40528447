import ModelOperator.Json.Printer

/-!
# Durations and their text

    A duration is a number of seconds below `2 ^ 64` and nanoseconds below a second.
    Its text uses the largest fitting unit: nanoseconds, microseconds or milliseconds
    below one second, then hours, minutes and seconds, where minutes are written when
    hours or minutes are not zero and a fraction has no zeros at its end. -/

namespace ModelOperator

/-- A span of time in nanoseconds. -/
structure Duration where
  nanos : Nat
  deriving DecidableEq, Repr

namespace Duration

/-- Nanoseconds of a microsecond. -/
def micro : Nat := 1000

/-- Nanoseconds of a millisecond. -/
def milli : Nat := 1000000

/-- Nanoseconds of a second. -/
def second : Nat := 1000000000

/-- A span of whole seconds. -/
def ofSeconds (n : Nat) : Duration := ⟨n * second⟩

/-- Digits with zeros in front, up to a width. -/
def padded (width n : Nat) : List Char :=
  let ds := decimalDigits n
  List.replicate (width - ds.length) '0' ++ ds

/-- Digits without the zeros at their end. -/
def trimZeros (ds : List Char) : List Char := (ds.reverse.dropWhile (· == '0')).reverse

/-- A number of units: the whole ones, and a fraction where it is not zero. -/
def inUnit (value unit places : Nat) : List Char :=
  let whole := decimalDigits (value / unit)
  if value % unit = 0 then whole
  else whole ++ '.' :: trimZeros (padded places (value % unit))

/-- The text of a duration. -/
def chars (d : Duration) : List Char :=
  let n := d.nanos
  if n = 0 then ['0', 's']
  else if n < micro then decimalDigits n ++ ['n', 's']
  else if n < milli then inUnit n micro 3 ++ ['µ', 's']
  else if n < second then inUnit n milli 6 ++ ['m', 's']
  else
    let total := n / second
    let hours := total / 3600
    let minutes := total / 60 % 60
    let seconds := total % 60
    (if 0 < hours then decimalDigits hours ++ ['h'] else []) ++
    (if 0 < hours ∨ 0 < minutes then decimalDigits minutes ++ ['m'] else []) ++
    (inUnit (seconds * second + n % second) second 9 ++ ['s'])

/-- The text of a duration. -/
def text (d : Duration) : String := String.ofList d.chars

end Duration

end ModelOperator
