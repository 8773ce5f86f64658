/-!
# Decimal notation

Whole numbers in decimal digits, and decimal fractions written out by position. A `Decimal` is a
coefficient times a power of ten; its positional form never uses an exponent, so a large power
shows as zeros before the point and a small one as zeros after it.
-/

namespace TagTemplate

/-- A whole number in decimal: a minus sign if it is negative, then its digits without superfluous
leading zeros. -/
def intChars (n : Int) : List Char :=
  if n < 0 then '-' :: Nat.toDigits 10 n.natAbs else Nat.toDigits 10 n.natAbs

/-- The decimal text of a whole number. -/
def intText (n : Int) : String :=
  .ofList (intChars n)

/-- The decimal text of a whole number with zeros between its sign and its digits, as many as bring
the sign and the digits to `width` characters. A longer number stays as it is. -/
def zeroPadded (n : Int) (width : Nat) : String :=
  let sign := if n < 0 then ['-'] else []
  let digits := Nat.toDigits 10 n.natAbs
  .ofList (sign ++ List.replicate (width - sign.length - digits.length) '0' ++ digits)

/-- The number `coefficient * 10 ^ exponent`. -/
structure Decimal where
  coefficient : Nat
  exponent : Int
deriving DecidableEq

/-- The number by position: digits, and a point with more digits if the exponent is negative. At
least one digit stands before the point. -/
def Decimal.positional (d : Decimal) : List Char :=
  let digits := Nat.toDigits 10 d.coefficient
  if 0 ≤ d.exponent then
    digits ++ List.replicate d.exponent.natAbs '0'
  else
    let places := d.exponent.natAbs
    if places < digits.length then
      digits.take (digits.length - places) ++ '.' :: digits.drop (digits.length - places)
    else
      '0' :: '.' :: (List.replicate (places - digits.length) '0' ++ digits)

end TagTemplate
