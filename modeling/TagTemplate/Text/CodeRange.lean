/-!
# Sets of characters as tables of code points

A table lists closed intervals of code points. The classes of characters that the library needs
beyond ASCII are such tables.
-/

namespace TagTemplate.Text

/-- Does the table list the character? Each entry stands for the code points from its first to its
second component, both included. -/
def inTable (table : List (Nat × Nat)) (c : Char) : Bool :=
  table.any fun r => decide (r.1 ≤ c.toNat) && decide (c.toNat ≤ r.2)

end TagTemplate.Text
