/-!
# Reading integers

The decimal notation of a signed 64-bit integer: an optional sign and one or more digits. A text
that is no such integer is refused with the first fault met from left to right, and a value out of
range is a fault of its own.
-/

namespace TagTemplate

/-- Why a text is no integer. -/
inductive IntegerFault
  | empty
  | invalidDigit
  | tooLarge
  | tooSmall
deriving DecidableEq

/-- The fault in words. -/
def IntegerFault.message : IntegerFault → String
  | .empty => "cannot parse integer from empty string"
  | .invalidDigit => "invalid digit found in string"
  | .tooLarge => "number too large to fit in target type"
  | .tooSmall => "number too small to fit in target type"

/-- Does the number fit a signed 64-bit integer? -/
def fitsInt64 (n : Int) : Bool :=
  decide (Int64.minValue.toInt ≤ n) && decide (n ≤ Int64.maxValue.toInt)

/-- The fault of leaving the range on the side of the sign. -/
def IntegerFault.outOfRange (negative : Bool) : IntegerFault :=
  if negative then .tooSmall else .tooLarge

/-- Takes one more digit into a number. The number grows away from zero in the direction of its
sign, and both the shift by a place and the digit added must stay in range. -/
def appendDigit (negative : Bool) (n : Int) (c : Char) : Except IntegerFault Int :=
  if c.isDigit then
    let shifted := n * 10
    let digit : Int := (c.toNat - '0'.toNat : Nat)
    let next := if negative then shifted - digit else shifted + digit
    if fitsInt64 shifted && fitsInt64 next then .ok next else .error (.outOfRange negative)
  else
    .error .invalidDigit

/-- Reads the digits of a number with the given sign. -/
def readDigits (negative : Bool) : List Char → Except IntegerFault Int64
  | [] => .error .invalidDigit
  | cs => (cs.foldlM (appendDigit negative) 0).map Int64.ofInt

/-- Reads a signed 64-bit integer from its decimal notation. -/
def readInteger : List Char → Except IntegerFault Int64
  | [] => .error .empty
  | '+' :: cs => readDigits false cs
  | '-' :: cs => readDigits true cs
  | cs => readDigits false cs

end TagTemplate
