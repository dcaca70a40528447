import ModelOperator.Number.Binary64

/-!
# Decimal texts of doubles

    * `Decimal.shortest` finds the fewest decimal digits that read back as a double
      and, of those, the ones nearest to it;
    * `Binary64.text` writes them: positional for a leading digit between the fifth
      place after the point and the sixteenth before it, with an exponent otherwise;
    * `Binary64.ofDecimal` reads digits and a power of ten: the digits are rounded
      to a double first and then scaled by a power of ten with one more rounding;
    * `fixedPlaces` writes a fraction with a fixed number of places, ties to even. -/

namespace ModelOperator

/-- The decimal digits of a whole number, most significant first. -/
def decimalDigits (n : Nat) : List Char := Nat.toDigits 10 n

/-- Digits `digits` with the leading one at the place `10 ^ exponent`. -/
structure Decimal where
  digits : Nat
  exponent : Int
  deriving DecidableEq, Repr

namespace Decimal

/-- The place of the leading decimal digit of `num / den`. -/
def leadingPlace (num den : Nat) : Int :=
  let a := (decimalDigits num).length
  let b := (decimalDigits den).length
  let reached :=
    if b ≤ a then den * Nat.pow 10 (a - b) ≤ num else den ≤ num * Nat.pow 10 (b - a)
  if reached then (a : Int) - b else (a : Int) - b - 1

/-- A fraction measured in units of `10 ^ place`. -/
def inUnits (num den : Nat) (place : Int) : Nat × Nat :=
  if place < 0 then (num * Nat.pow 10 (-place).toNat, den) else (num, den * Nat.pow 10 place.toNat)

/-- The whole numbers of a unit whose double is the one with the given bounds, nearest first. -/
def candidate? (lo mid hi den : Nat) (closed : Bool) (place : Int) : Option Nat :=
  let (low, d) := inUnits lo den place
  let (value, _) := inUnits mid den place
  let (high, _) := inUnits hi den place
  let inside (c : Nat) : Bool :=
    if closed then low ≤ c * d && c * d ≤ high else low < c * d && c * d < high
  let below := value / d
  let above := below + 1
  match inside below && below != 0, inside above with
  | true, true => if value - below * d ≤ above * d - value then some below else some above
  | true, false => some below
  | false, true => some above
  | false, false => none

/-- The first grid, from the coarsest, that has a whole number in the interval. -/
def search (lo mid hi den : Nat) (closed : Bool) (leading : Int) : Nat → Nat → Option (Nat × Int)
  | 0, _ => none
  | fuel + 1, n =>
    let place := leading - n
    match candidate? lo mid hi den closed place with
    | some c => some (c, place)
    | none => search lo mid hi den closed leading fuel (n + 1)

/-- A whole number without its trailing zeros, and how many there were. -/
def dropZeros : Nat → Nat → Nat × Nat
  | 0, n => (n, 0)
  | fuel + 1, n =>
    if n ≠ 0 ∧ n % 10 = 0 then
      let (m, k) := dropZeros fuel (n / 10)
      (m, k + 1)
    else (n, 0)

/-- The fewest digits that read back as the double, nearest to it among those. -/
def shortest (x : Binary64) : Decimal :=
  if x.isZero then ⟨0, 0⟩
  else
    let (num, den) := x.ratio
    let narrow : Bool := x.mantissa == Nat.pow 2 52 && Binary64.minExponent < x.exponent
    let (unit, den) := ((num / x.mantissa), 4 * den)
    let mid := 4 * num
    let hi := mid + 2 * unit
    let lo := if narrow then mid - unit else mid - 2 * unit
    let closed := x.mantissa % 2 == 0
    match search lo mid hi den closed (leadingPlace mid den) 18 0 with
    | none => ⟨0, 0⟩
    | some (c, place) =>
      let (digits, dropped) := dropZeros 20 c
      ⟨digits, place + dropped + (decimalDigits digits).length - 1⟩

/-- Positional or scientific text of the digits, with at least one place after the point
    where it is positional. -/
def text (d : Decimal) : List Char :=
  let ds := decimalDigits d.digits
  if -5 ≤ d.exponent ∧ d.exponent < 16 then
    if d.exponent < 0 then
      '0' :: '.' :: (List.replicate ((-d.exponent).toNat - 1) '0' ++ ds)
    else
      let whole := d.exponent.toNat + 1
      let front := ds.take whole ++ List.replicate (whole - ds.length) '0'
      let back := ds.drop whole
      front ++ '.' :: (if back.isEmpty then ['0'] else back)
  else
    let lead := match ds with
      | [] => ['0']
      | [c] => [c]
      | c :: more => c :: '.' :: more
    let sign := if d.exponent < 0 then '-' else '+'
    lead ++ 'e' :: sign :: decimalDigits d.exponent.natAbs

end Decimal

namespace Binary64

/-- The text of a double in a document. -/
def text (x : Binary64) : List Char :=
  let body := (Decimal.shortest x).text
  if x.negative then '-' :: body else body

/-- The largest power of ten that is a finite double. -/
def maxPower : Nat := 308

/-- A value divided by a power of ten, in steps of at most `maxPower` places. -/
def scaleBelow : Nat → Binary64 → Nat → Option Binary64
  | 0, x, _ => some (zero x.negative)
  | fuel + 1, x, places =>
    if places ≤ maxPower then do
      let pow ← ofNat (Nat.pow 10 places)
      x.div pow
    else if x.isZero then some x
    else do
      let pow ← ofNat (Nat.pow 10 maxPower)
      let y ← x.div pow
      scaleBelow fuel y (places - maxPower)

/-- The double read from whole digits and a power of ten: the digits are rounded, then the
    scaling is. None when the result is too large. -/
def ofDecimal (negative : Bool) (digits : Nat) (power : Int) : Option Binary64 := do
  let x ← ofNat digits
  let y ←
    if 0 ≤ power then
      if power ≤ maxPower then do
        let pow ← ofNat (Nat.pow 10 power.toNat)
        x.mul pow
      else if x.isZero then some x else none
    else scaleBelow 4 x (-power).toNat
  some { y with negative := negative }

end Binary64

/-- `num / den` with `places` digits after the point, rounded to nearest with ties to even. -/
def fixedPlaces (num den places : Nat) : List Char :=
  let scaled := roundDiv (num * Nat.pow 10 places) den
  let ds := decimalDigits scaled
  let padded := List.replicate (places + 1 - ds.length) '0' ++ ds
  let cut := padded.length - places
  padded.take cut ++ (if places = 0 then [] else '.' :: padded.drop cut)

end ModelOperator
