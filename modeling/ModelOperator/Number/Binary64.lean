/-!
# Binary64 — finite doubles as exact dyadic values

    A finite double is a sign, a whole mantissa and a power of two, so that every
    question about it (rounding, comparison, printing) is one about whole numbers.

    * `Binary64.ofRatio` rounds a fraction to the nearest double, ties to the even
      mantissa, and answers `none` above the largest finite one;
    * `mul`, `div` and `add` are the exact operation followed by that one rounding;
    * `roundDiv` is the rounding of a quotient to a whole number that all of them,
      and the decimal texts, are built from. -/

namespace ModelOperator

/-- The whole number nearest to `num / den`, a tie going to the even one. -/
def roundDiv (num den : Nat) : Nat :=
  let q := num / den
  let r := num % den
  if den < 2 * r ∨ (2 * r = den ∧ q % 2 = 1) then q + 1 else q

/-- The finite double `± mantissa · 2 ^ exponent`. -/
structure Binary64 where
  negative : Bool
  mantissa : Nat
  exponent : Int
  deriving DecidableEq, Repr

namespace Binary64

/-- The exponent of the smallest doubles. -/
def minExponent : Int := -1074

/-- The exponent of the largest doubles. -/
def maxExponent : Int := 971

/-- Zero with a sign. -/
def zero (negative : Bool) : Binary64 := ⟨negative, 0, minExponent⟩

/-- `num / den` scaled by `2 ^ (-e)`, as a fraction. -/
def scaleDown (num den : Nat) (e : Int) : Nat × Nat :=
  if e < 0 then (num * Nat.pow 2 (-e).toNat, den) else (num, den * Nat.pow 2 e.toNat)

/-- The exponent at which `num / den` has a mantissa of 53 bits, or the least exponent. -/
def exponentFor (num den : Nat) : Int :=
  let guess : Int := (Nat.log2 num : Int) - (Nat.log2 den : Int) - 53
  let scaled := scaleDown num den guess
  let e := if Nat.pow 2 53 ≤ scaled.1 / scaled.2 then guess + 1 else guess
  max e minExponent

/-- The double nearest to `num / den`, ties to the even mantissa; none above the largest. -/
def ofRatio (negative : Bool) (num den : Nat) : Option Binary64 :=
  if num = 0 then some (zero negative)
  else
    let e := exponentFor num den
    let scaled := scaleDown num den e
    let m := roundDiv scaled.1 scaled.2
    let (m, e) := if m = Nat.pow 2 53 then (Nat.pow 2 52, e + 1) else (m, e)
    if maxExponent < e then none else some ⟨negative, m, e⟩

/-- The absolute value as a fraction. -/
def ratio (x : Binary64) : Nat × Nat :=
  if x.exponent < 0 then (x.mantissa, Nat.pow 2 (-x.exponent).toNat)
  else (x.mantissa * Nat.pow 2 x.exponent.toNat, 1)

/-- The double nearest to a whole number. -/
def ofNat (n : Nat) : Option Binary64 := ofRatio false n 1

/-- Whether the value is zero, of either sign. -/
def isZero (x : Binary64) : Bool := x.mantissa == 0

/-- The same value with the other sign. -/
def neg (x : Binary64) : Binary64 := { x with negative := !x.negative }

/-- The rounded product. -/
def mul (x y : Binary64) : Option Binary64 :=
  let a := x.ratio
  let b := y.ratio
  ofRatio (x.negative != y.negative) (a.1 * b.1) (a.2 * b.2)

/-- The rounded quotient; none for a zero divisor. -/
def div (x y : Binary64) : Option Binary64 :=
  let a := x.ratio
  let b := y.ratio
  if b.1 = 0 then none else ofRatio (x.negative != y.negative) (a.1 * b.2) (a.2 * b.1)

/-- The rounded sum of two values that are not negative. -/
def addMagnitudes (x y : Binary64) : Option Binary64 :=
  let a := x.ratio
  let b := y.ratio
  ofRatio false (a.1 * b.2 + b.1 * a.2) (a.2 * b.2)

/-- Numeric equality: the two zeros are equal. -/
def same (x y : Binary64) : Bool :=
  (x.isZero && y.isZero) || x == y

end Binary64

end ModelOperator
