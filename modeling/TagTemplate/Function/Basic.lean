import TagTemplate.Function.Body

/-!
# Functions

A function has a name, the numbers of operands it accepts, and a body for each of them. An *eager*
function evaluates all its operands first and then works on their texts.
-/

namespace TagTemplate

/-- A function that templates can call. -/
structure Function where
  name : String
  arity : Arity
  /-- What the function does, given the number of its operands. -/
  body : Nat → Body String

namespace Function

/-- The function that evaluates all its operands and applies `f` to their texts. -/
def eager (name : String) (arity : Arity) (f : List String → Except EvalError String) :
    Function where
  name := name
  arity := arity
  body count := do
    let ts ← Body.texts count
    .done (f ts)

end Function

end TagTemplate
