import TagTemplate.Function.Basic
import TagTemplate.Number.Decimal
import TagTemplate.Number.Shortest

/-!
# Functions given by data

Functions that a caller describes rather than programs: a joiner, a constant, a failure, and a
script of single steps. They announce their start: the eager ones once their operands are evaluated,
a script before it evaluates any.
-/

namespace TagTemplate.Function

/-! ## Eager functions -/

/-- The function that evaluates its operands, announces itself and applies `f` to their texts. -/
def announced (name : String) (arity : Arity) (f : List String → Except EvalError String) :
    Function where
  name := name
  arity := arity
  body count := do
    let ts ← Body.texts count
    Body.started
    .done (f ts)

/-- The operands with a text between them. -/
def joining (name : String) (arity : Arity) (separator : String) : Function :=
  announced name arity fun ts => .ok (separator.intercalate ts)

/-- A text that does not depend on the operands. -/
def constant (name : String) (arity : Arity) (text : String) : Function :=
  announced name arity fun _ => .ok text

/-- A failure, which may point at source text of its own choice. If it comes of a text that should
have been an integer and is none, the fault of that text is its cause. -/
def failing (name : String) (arity : Arity) (message : String) (span : Option Span)
    (misread : Option String) : Function :=
  announced name arity fun _ =>
    let cause := misread.bind fun t =>
      match readInteger t.toList with
      | .ok _ => none
      | .error fault => some fault.message
    .error { anomaly := .functionFailed name message, span, cause }

/-! ## Scripts -/

/-- A step of a script, which looks at operands and gives a text. -/
inductive Step
  /-- The text of an operand. -/
  | text (index : Nat)
  /-- The truth of an operand, as a word. -/
  | truth (index : Nat)
  /-- An operand as an integer, in decimal. -/
  | integer (index : Nat)
  /-- An operand as a number, in decimal. -/
  | number (index : Nat)
  /-- The number of operands. -/
  | count
  /-- Whether there are no operands, as a word. -/
  | isEmpty
  /-- All operands with slashes between them. -/
  | texts
deriving DecidableEq

/-- A truth value as a word. -/
def truthWord (b : Bool) : String :=
  if b then "true" else "false"

/-- What a step does in a call with `count` operands. -/
def Step.body (count : Nat) : Step → Body String
  | .text i => Body.text i
  | .truth i => do
    let b ← Body.truth i
    pure (truthWord b)
  | .integer i => do
    let n ← Body.integer i
    pure (intText n.toInt)
  | .number i => do
    let x ← Body.number i
    pure x.text
  | .count => pure count.repr
  | .isEmpty => pure (truthWord (count == 0))
  | .texts => do
    let ts ← Body.texts count
    pure ("/".intercalate ts)

/-- What the steps of a script do, one after the other. -/
def Step.bodies (count : Nat) : List Step → Body (List String)
  | [] => pure []
  | s :: ss => do
    let t ← s.body count
    let ts ← Step.bodies count ss
    pure (t :: ts)

/-- The function that performs the steps of a script in order and joins their texts. -/
def scripted (name : String) (arity : Arity) (steps : List Step) : Function where
  name := name
  arity := arity
  body count := do
    Body.started
    let ts ← Step.bodies count steps
    pure ("|".intercalate ts)

end TagTemplate.Function
