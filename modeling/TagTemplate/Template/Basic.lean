import TagTemplate.Span

/-!
# Templates as flat tables

A compiled template keeps all its nodes in one table, all argument sequences in a second, and all
texts and names in one string. A `Range` cuts a piece out of one of the three, so a template takes
three allocations however deeply its calls nest.

`TagTemplate.Template.Layout` builds the tables from a tree of nodes, and
`TagTemplate.Template.Unfold` reads the tree back.
-/

namespace TagTemplate

/-- A piece of a table, or of the text in bytes: `size` entries from `start` on. -/
structure Range where
  start : Nat
  size : Nat
deriving DecidableEq

/-- The first entry after the piece. -/
def Range.stop (r : Range) : Nat :=
  r.start + r.size

/-- A node whose text, name and arguments lie in the tables of its template. -/
inductive Cell
  | literal (text : Range) (span : Span)
  | field (name : Range) (span : Span)
  | call (name : Range) (args : Range) (span : Span)
deriving DecidableEq

/-- The tables of a template. -/
structure Arena where
  /-- The nodes of all sequences; the nodes of a sequence are neighbours. -/
  cells : Array Cell := #[]
  /-- The argument sequences of all calls; those of a call are neighbours. -/
  args : Array Range := #[]
  /-- All texts and names. -/
  text : String := ""
deriving DecidableEq

namespace Arena

/-- The nodes of a sequence. -/
def cellsOf (a : Arena) (r : Range) : List Cell :=
  (a.cells.extract r.start r.stop).toList

/-- The argument sequences of a call. -/
def argsOf (a : Arena) (r : Range) : List Range :=
  (a.args.extract r.start r.stop).toList

/-- A literal text, or the name of a field or a function. -/
def textOf (a : Arena) (r : Range) : String :=
  String.Pos.Raw.extract a.text ⟨r.start⟩ ⟨r.stop⟩

/-- The number of calls around each other in a sequence, as far as `levels` of them. -/
def depthWithin (a : Arena) : Nat → Range → Nat
  | 0, _ => 0
  | levels + 1, r =>
    (a.cellsOf r).foldr (fun cell deepest =>
      match cell with
      | .literal _ _ | .field _ _ => deepest
      | .call _ args _ =>
        max deepest (1 + ((a.argsOf args).map (a.depthWithin levels)).foldr max 0)) 0

end Arena

/-- A compiled template: its tables and the sequence at its top. -/
structure Template extends Arena where
  root : Range
deriving DecidableEq

namespace Template

/-- The nodes at the top level. -/
def rootCells (t : Template) : List Cell :=
  t.cellsOf t.root

/-- The number of nodes at all levels. -/
def nodeCount (t : Template) : Nat :=
  t.cells.size

/-- Has the template no nodes at the top level? Such a template gives empty text for any record. -/
def isEmpty (t : Template) : Bool :=
  t.root.size == 0

/-- The greatest number of calls around each other. The sequences of a call's arguments lie before
the call in the table of nodes, so no more calls nest than there are nodes. -/
def depth (t : Template) : Nat :=
  t.depthWithin t.nodeCount t.root

end Template

end TagTemplate
