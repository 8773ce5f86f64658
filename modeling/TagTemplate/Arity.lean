/-!
# Arities

How many operands a function accepts.
-/

namespace TagTemplate

/-- The numbers of operands a function accepts. -/
inductive Arity
  | exactly (n : Nat)
  | atLeast (n : Nat)
deriving DecidableEq

namespace Arity

/-- Is the number of operands accepted? -/
def accepts : Arity → Nat → Bool
  | exactly n, count => count == n
  | atLeast n, count => decide (n ≤ count)

/-- The arity in words. -/
def text : Arity → String
  | exactly n => n.repr
  | atLeast n => "at least " ++ n.repr

end Arity

end TagTemplate
