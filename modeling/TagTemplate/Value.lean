import TagTemplate.Number.Decimal
import TagTemplate.Number.Shortest

/-!
# Field values

A field holds a text, an integer or a floating-point number. A template sees a value only as text;
the infinities and NaN have no text form.
-/

namespace TagTemplate

/-- The value of a field. -/
inductive Value
  | text (s : String)
  | integer (n : Int64)
  | number (x : Binary64)
deriving DecidableEq

namespace Value

/-- The text form of a value: a text as it is, an integer in decimal, a finite number as the
shortest decimal that reads back. -/
def text? : Value → Option String
  | text s => some s
  | integer n => some (intText n.toInt)
  | number x => if x.isFinite then some x.decimalText else none

/-- The text form of a value, empty if it has none. -/
def display (v : Value) : String :=
  v.text?.getD ""

/-- The name of a value's type, for messages. -/
def typeName : Value → String
  | text _ => "string"
  | integer _ => "integer"
  | number _ => "float"

/-- The text, if the value is one. -/
def asText? : Value → Option String
  | text s => some s
  | _ => none

/-- The integer, if the value is one. -/
def asInteger? : Value → Option Int64
  | integer n => some n
  | _ => none

/-- The value as a floating-point number: an integer gives the number nearest to it. -/
def asNumber? : Value → Option Binary64
  | number x => some x
  | integer n => some (.ofInt n.toInt)
  | text _ => none

/-- Are the two values equal? Values of different types differ, and numbers are compared as numbers,
so a NaN differs from itself and the two zeros are equal. -/
def same : Value → Value → Bool
  | text s, text t => s == t
  | integer m, integer n => m == n
  | number x, number y => x.sameNumber y
  | _, _ => false

end Value

end TagTemplate
