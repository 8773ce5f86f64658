import TagTemplate.Number.Binary64

/-!
# Reading floating-point numbers

The notation of a floating-point operand: an optional sign, then either a name (`inf`, `infinity` or
`nan`, in any case) or a mantissa of digits with at most one point among or around them, and an
optional exponent `e` or `E` with an optional sign and digits. The value is rounded once, to the
nearest number.
-/

namespace TagTemplate.Binary64

/-- The mantissa's digits before and after its point, and what follows them. -/
def splitMantissa (cs : List Char) : List Char × List Char × List Char :=
  let whole := cs.takeWhile Char.isDigit
  match cs.dropWhile Char.isDigit with
  | '.' :: rest => (whole, rest.takeWhile Char.isDigit, rest.dropWhile Char.isDigit)
  | rest => (whole, [], rest)

/-- The value of digits of an exponent, which must be there and be all that is left. -/
def readExponentDigits (cs : List Char) : Option Nat :=
  if cs ≠ [] ∧ cs.all Char.isDigit then some (Nat.ofDigitChars 10 cs 0) else none

/-- The exponent that ends a number, zero if nothing is left. -/
def readExponent : List Char → Option Int
  | [] => some 0
  | e :: cs =>
    if e = 'e' ∨ e = 'E' then
      match cs with
      | '+' :: ds => (readExponentDigits ds).map Int.ofNat
      | '-' :: ds => (readExponentDigits ds).map fun n => -(n : Int)
      | ds => (readExponentDigits ds).map Int.ofNat
    else
      none

/-- The number nearest to `coefficient * 10 ^ exponent`. A coefficient of `n` digits makes a value
from `10 ^ (n - 1 + exponent)` to below `10 ^ (n + exponent)`; far outside the range of the finite
numbers the answer is known without the power. -/
def ofDecimal (negative : Bool) (coefficient : Nat) (exponent : Int) : Binary64 :=
  let digits : Int := (Nat.toDigits 10 coefficient).length
  if coefficient = 0 ∨ digits + exponent < -324 then ofMagnitude negative 0
  else if 310 < digits + exponent then infinity negative
  else if 0 ≤ exponent then nearest negative (coefficient * Nat.pow 10 exponent.natAbs) 1
  else nearest negative coefficient (Nat.pow 10 exponent.natAbs)

/-- A number in digits, without its sign. -/
def readDecimal (negative : Bool) (cs : List Char) : Option Binary64 :=
  let (whole, part, rest) := splitMantissa cs
  if whole = [] ∧ part = [] then none
  else
    (readExponent rest).map fun e =>
      ofDecimal negative (Nat.ofDigitChars 10 (whole ++ part) 0) (e - part.length)

/-- A named number, without its sign. -/
def readName (negative : Bool) (cs : List Char) : Option Binary64 :=
  let name := cs.map Char.toLower
  if name = "inf".toList ∨ name = "infinity".toList then some (infinity negative)
  else if name = "nan".toList then some nan
  else none

/-- A number without its sign, in digits or by name. -/
def readUnsigned (negative : Bool) (cs : List Char) : Option Binary64 :=
  (readDecimal negative cs).or (readName negative cs)

/-- Reads a floating-point number. -/
def read : List Char → Option Binary64
  | '+' :: cs => readUnsigned false cs
  | '-' :: cs => readUnsigned true cs
  | cs => readUnsigned false cs

end TagTemplate.Binary64
