import TagTemplate.Function.Typed
import TagTemplate.Number.Decimal

/-!
# Functions for track data

A few functions with typed parameters that tag formats ask for: brackets, padded numbers, durations
and the like. They are not builtin; whoever needs them registers them.
-/

namespace TagTemplate.Function

/-- The text in square brackets. -/
def bracket : Function :=
  typed "bracket" [.text] fun t => .ok ("[" ++ t ++ "]")

/-- A number with leading zeros up to a width, its sign included. -/
def pad : Function :=
  typed "pad" [.integer, .integer] fun n width =>
    if width.toInt < 0 then
      .error { anomaly := .functionFailed "pad" "negative width" }
    else
      .ok (zeroPadded n.toInt width.toInt.toNat)

/-- A number of seconds, rounded to a whole one, in minutes and seconds. Both parts have the sign of
the number. -/
def duration : Function :=
  typed "duration" [.number] fun seconds =>
    let total := seconds.toInt64Saturating.toInt
    .ok (intText (total.tdiv 60) ++ ":" ++ zeroPadded (total.tmod 60) 2)

/-- Yes or no. -/
def yesNo : Function :=
  typed "yesno" [.truth] fun b => .ok (if b then "yes" else "no")

/-- A slash between blanks. -/
def separator : Function :=
  typed "separator" [] (.ok " / ")

/-- Two texts with an equals sign between them. -/
def pair : Function :=
  typed "pair" [.text, .text] fun s t => .ok (s ++ "=" ++ t)

end TagTemplate.Function
