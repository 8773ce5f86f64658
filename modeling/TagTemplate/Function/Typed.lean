import TagTemplate.Function.Basic

/-!
# Functions with typed parameters

A function may be given by the types of its parameters and a plain function of that many arguments.
Its operands are evaluated and converted one after the other, in order, and only when all of them
are there does it run. It accepts exactly as many operands as it has parameters.
-/

namespace TagTemplate

/-- The types a parameter can have. -/
inductive ParamType
  | text
  | integer
  | number
  | truth
deriving DecidableEq

namespace ParamType

/-- The arguments of a parameter's type. -/
abbrev Argument : ParamType → Type
  | text => String
  | integer => Int64
  | number => Binary64
  | truth => Bool

/-- Evaluates an operand and converts it to a parameter's type. -/
def convert : (p : ParamType) → Nat → Body p.Argument
  | text, i => Body.text i
  | integer, i => Body.integer i
  | number, i => Body.number i
  | truth, i => Body.truth i

/-- Functions of arguments of the given types. -/
abbrev Implementation : List ParamType → Type
  | [] => Except EvalError String
  | p :: ps => p.Argument → Implementation ps

/-- Converts the operands from `i` on in order and applies the implementation to them. -/
def applyFrom : (ps : List ParamType) → Nat → Implementation ps → Body String
  | [], _, result => .done result
  | p :: ps, i, f => do
    let a ← p.convert i
    applyFrom ps (i + 1) (f a)

end ParamType

namespace Function

/-- The function with parameters of the given types. -/
def typed (name : String) (params : List ParamType) (f : ParamType.Implementation params) :
    Function where
  name := name
  arity := .exactly params.length
  body _ := ParamType.applyFrom params 0 f

end Function

end TagTemplate
