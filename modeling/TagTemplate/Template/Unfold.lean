import TagTemplate.Node
import TagTemplate.Template.Basic

/-!
# Reading the tree of a template back

The tree of a template is read off its tables by following the ranges from the root.
-/

namespace TagTemplate

/-- The nodes of a sequence, followed through at most `levels` sequences inside each other. -/
def Arena.unfold (a : Arena) : Nat → Range → List Node
  | 0, _ => []
  | levels + 1, r =>
    (a.cellsOf r).map fun
      | .literal text span => .literal (a.textOf text) span
      | .field name span => .field (a.textOf name) span
      | .call name args span =>
        .call (a.textOf name) ((a.argsOf args).map (a.unfold levels)) span

/-- The tree of a template. No more sequences lie inside each other than there are nodes, the one at
the top apart. -/
def Template.toNodes (t : Template) : List Node :=
  t.unfold (t.nodeCount + 1) t.root

end TagTemplate
