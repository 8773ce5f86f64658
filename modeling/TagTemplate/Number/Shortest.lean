import TagTemplate.Number.Binary64
import TagTemplate.Number.Decimal

/-!
# The shortest decimal that reads back

A finite nonzero number is the nearest one to every decimal in its *rounding interval*, which
reaches half way to either neighbour. `Binary64.shortest` takes the coarsest grid of multiples of a
power of ten that has a point in the interval, and of such points the one nearest to the number. So
the decimal reads back as the number, and no decimal with fewer digits does.

All comparisons are between natural numbers: a quantity is held in quarters of a unit, times
`10 ^ 1074`, so that every power of ten from `10 ^ -1074` upwards is whole.
-/

namespace TagTemplate.Binary64

/-- The rounding interval of a number in quarters of a unit: its lower end, the number itself, its
upper end, and whether the ends belong to it. -/
structure Interval where
  low : Nat
  mid : Nat
  high : Nat
  closed : Bool
deriving DecidableEq

/-- The rounding interval of a finite nonzero number. Below a power of two the neighbour is only
half as far away as above it. Ends are ties, which go to the even significand. -/
def interval (x : Binary64) : Interval where
  low :=
    4 * x.units -
      (if x.fraction = 0 ∧ 1 < x.exponentField then Nat.pow 2 x.ulpExponent
        else 2 * Nat.pow 2 x.ulpExponent)
  mid := 4 * x.units
  high := 4 * x.units + 2 * Nat.pow 2 x.ulpExponent
  closed := decide (x.fraction % 2 = 0)

/-- The scale of the comparisons: a quarter unit in multiples of `2 ^ -1076 * 10 ^ -1074`. -/
def quarterScale : Nat :=
  Nat.pow 10 1074

/-- The step of the grid of multiples of `10 ^ (place - 1074)`, on the scale of the comparisons. -/
def gridStep (place : Nat) : Nat :=
  Nat.pow 10 place * Nat.pow 2 1076

/-- Does the interval contain a point on the scale of the comparisons? -/
def Interval.contains (i : Interval) (point : Nat) : Bool :=
  if i.closed then
    decide (i.low * quarterScale ≤ point) && decide (point ≤ i.high * quarterScale)
  else
    decide (i.low * quarterScale < point) && decide (point < i.high * quarterScale)

/-- The multiple of the grid's step that lies in the interval nearest to its middle, a tie going to
the greater one. Only the two multiples around the middle can be it. -/
def Interval.nearestOn? (i : Interval) (place : Nat) : Option Nat :=
  let step := gridStep place
  let mid := i.mid * quarterScale
  let below := mid / step
  let above := below + 1
  match i.contains (below * step), i.contains (above * step) with
  | true, true => some (if mid - below * step < above * step - mid then below else above)
  | true, false => some below
  | false, true => some above
  | false, false => none

/-- The decimal of the coarsest grid that has a point in the interval, among the grids up to
`place`. The finest grid, of step `10 ^ -1074`, has the number itself on it. -/
def Interval.search (i : Interval) : Nat → Decimal
  | 0 => ⟨i.mid * quarterScale / gridStep 0, -1074⟩
  | place + 1 =>
    match i.nearestOn? (place + 1) with
    | some k => ⟨k, (place + 1 : Int) - 1074⟩
    | none => i.search place

/-- The shortest decimal that reads back as the magnitude of a finite number. No finite number
reaches `10 ^ 309`, so the search starts at `10 ^ 308`. -/
def shortest (x : Binary64) : Decimal :=
  if x.magnitude = 0 then ⟨0, 0⟩ else x.interval.search (308 + 1074)

/-- The decimal text of a finite number, with a minus sign if its sign bit is set, negative zero
included. -/
def decimalText (x : Binary64) : String :=
  .ofList ((if x.isNegative then ['-'] else []) ++ x.shortest.positional)

/-- The text of any word: the infinities and NaN have names. -/
def text (x : Binary64) : String :=
  if x.isNaN then "NaN"
  else if x.isFinite then x.decimalText
  else if x.isNegative then "-inf"
  else "inf"

end TagTemplate.Binary64
