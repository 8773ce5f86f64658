import TagTemplate.Function.Basic
import TagTemplate.Number.Decimal
import TagTemplate.Text.Case

/-!
# The builtin functions

The functions every registry starts with, unless it starts empty. Text is true if it is not empty,
and functions with a truth value as their result give `marker`. The conditional functions evaluate
only the operands they select; the others are eager.
-/

namespace TagTemplate.Function

/-- The text of a truth value. -/
def marker (b : Bool) : String :=
  if b then "1" else ""

/-! ## Conditional functions -/

/-- Chooses the second or the third operand by the truth of the first. -/
def ifThenElse : Function where
  name := "if"
  arity := .exactly 3
  body _ := do
    if ← Body.truth 0 then Body.text 1 else Body.text 2

/-- Are both operands true? The second matters only if the first is. -/
def both : Function where
  name := "and"
  arity := .exactly 2
  body _ := do
    if ← Body.truth 0 then
      let b ← Body.truth 1
      pure (marker b)
    else
      pure (marker false)

/-- Is one of the operands true? The second matters only if the first is not. -/
def either : Function where
  name := "or"
  arity := .exactly 2
  body _ := do
    if ← Body.truth 0 then
      pure (marker true)
    else
      let b ← Body.truth 1
      pure (marker b)

/-- The first operand, or the second one where the first is empty. -/
def orDefault : Function where
  name := "default"
  arity := .exactly 2
  body _ := do
    let t ← Body.text 0
    if t = "" then Body.text 1 else pure t

/-- As many characters of the first operand as the second one says. The count is read first. -/
def left : Function where
  name := "left"
  arity := .exactly 2
  body _ := do
    let n ← Body.integer 1
    if n.toInt < 0 then
      Body.fail (.typeMismatch "non-negative integer" (intText n.toInt))
    else
      let t ← Body.text 0
      pure (.ofList (t.toList.take n.toInt.toNat))

/-! ## Eager functions -/

/-- The eager function of one operand. -/
def onText (name : String) (f : String → String) : Function :=
  eager name (.exactly 1) fun
    | [t] => .ok (f t)
    | _ => .ok ""

/-- Are the two operands the same text? -/
def equal : Function :=
  eager "equal" (.exactly 2) fun
    | [s, t] => .ok (marker (s == t))
    | _ => .ok ""

/-- Is the operand false? -/
def negation : Function :=
  onText "not" fun t => marker (t == "")

/-- The operand in upper case. -/
def upper : Function :=
  onText "upper" Text.toUpper

/-- The operand in lower case. -/
def lower : Function :=
  onText "lower" Text.toLower

/-- The number of characters of the operand. -/
def length : Function :=
  onText "length" fun t => t.length.repr

/-- The operand without the blanks around it. -/
def trim : Function :=
  onText "trim" Text.trim

/-- The operands one after the other. -/
def concat : Function :=
  eager "concat" (.atLeast 1) fun ts => .ok (String.join ts)

/-- The builtin functions. -/
def builtins : List Function :=
  [ifThenElse, both, either, orDefault, left, equal, negation, upper, lower, length, trim, concat]

end TagTemplate.Function
