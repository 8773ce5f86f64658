/-!
# Binary floating-point numbers of 64 bits

A `Binary64` is a word of 64 bits: a sign, an exponent field of 11 bits and a fraction of 52 bits.
Every finite magnitude is a whole number of *units*, the unit being the least positive number
`2 ^ -1074`, so values are compared and rounded in exact natural-number arithmetic.

`Binary64.nearest` rounds a quotient of natural numbers to the nearest number, ties to even.
-/

namespace TagTemplate

/-- A binary floating-point number of 64 bits, given by its bits. -/
structure Binary64 where
  bits : UInt64
deriving DecidableEq

namespace Binary64

/-! ## The fields of the word -/

/-- Is the sign bit set? -/
def isNegative (x : Binary64) : Bool :=
  decide (Nat.pow 2 63 ≤ x.bits.toNat)

/-- The word without its sign bit. Magnitudes are ordered like the numbers they stand for. -/
def magnitude (x : Binary64) : Nat :=
  x.bits.toNat % Nat.pow 2 63

/-- The exponent field. -/
def exponentField (x : Binary64) : Nat :=
  x.magnitude / Nat.pow 2 52

/-- The fraction field. -/
def fraction (x : Binary64) : Nat :=
  x.magnitude % Nat.pow 2 52

/-- The magnitude of the infinities: the greatest exponent field over an empty fraction. -/
def infinityMagnitude : Nat :=
  2047 * Nat.pow 2 52

/-- Is the number neither infinite nor NaN? -/
def isFinite (x : Binary64) : Bool :=
  decide (x.magnitude < infinityMagnitude)

/-- Is the word no number at all? -/
def isNaN (x : Binary64) : Bool :=
  decide (infinityMagnitude < x.magnitude)

/-- The word with the given sign and magnitude. -/
def ofMagnitude (negative : Bool) (magnitude : Nat) : Binary64 :=
  ⟨UInt64.ofNat (if negative then Nat.pow 2 63 + magnitude else magnitude)⟩

/-- An infinity. -/
def infinity (negative : Bool) : Binary64 :=
  ofMagnitude negative infinityMagnitude

/-- A word that is no number. -/
def nan : Binary64 :=
  ofMagnitude false (infinityMagnitude + Nat.pow 2 51)

/-! ## The value of a finite number -/

/-- The distance, as a power of two of units, between the number and the next greater magnitude. -/
def ulpExponent (x : Binary64) : Nat :=
  x.exponentField - 1

/-- The significand: the fraction, with the leading bit that all but the least numbers have. -/
def significand (x : Binary64) : Nat :=
  if x.exponentField = 0 then x.fraction else Nat.pow 2 52 + x.fraction

/-- The magnitude of a finite number in units of `2 ^ -1074`. -/
def units (x : Binary64) : Nat :=
  x.significand * Nat.pow 2 x.ulpExponent

/-- Are the two equal as numbers? A NaN equals nothing, and the two zeros are equal. -/
def sameNumber (x y : Binary64) : Bool :=
  !x.isNaN && !y.isNaN && (x == y || (x.magnitude == 0 && y.magnitude == 0))

/-! ## Rounding -/

/-- The quotient rounded to the nearest natural number, a half to the even neighbour. -/
def roundHalfEven (num den : Nat) : Nat :=
  let quotient := num / den
  let twice := 2 * (num % den)
  if twice < den then quotient
  else if den < twice then quotient + 1
  else quotient + quotient % 2

/-- The magnitude nearest to `num / den`. The quotient in units has some number of binary places; of
these 53 are kept, so the spacing of magnitudes there is `2 ^ ulp` units. Adding the rounded
significand to the exponent field lets a carry run into the next power of two by itself, and beyond
the finite magnitudes lies infinity. -/
def nearestMagnitude (num den : Nat) : Nat :=
  let scaled := num * Nat.pow 2 1074
  let ulp := (scaled / den).log2 - 52
  min (ulp * Nat.pow 2 52 + roundHalfEven scaled (den * Nat.pow 2 ulp)) infinityMagnitude

/-- The number of the given sign nearest to `num / den`. -/
def nearest (negative : Bool) (num den : Nat) : Binary64 :=
  ofMagnitude negative (nearestMagnitude num den)

/-- The number nearest to an integer. -/
def ofInt (n : Int) : Binary64 :=
  nearest (decide (n < 0)) n.natAbs 1

/-- The integer nearest to the number, a half away from zero, within the range of signed 64-bit
integers: numbers beyond it, infinities included, give its ends. A NaN gives zero. -/
def toInt64Saturating (x : Binary64) : Int64 :=
  if x.isNaN then 0
  else
    let rounded : Int := ((2 * x.units + Nat.pow 2 1074) / Nat.pow 2 1075 : Nat)
    let whole :=
      if x.isFinite then (if x.isNegative then -rounded else rounded)
      else if x.isNegative then Int64.minValue.toInt
      else Int64.maxValue.toInt
    Int64.ofInt (max Int64.minValue.toInt (min whole Int64.maxValue.toInt))

end Binary64

end TagTemplate
