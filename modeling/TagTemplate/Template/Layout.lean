import TagTemplate.Node
import TagTemplate.Template.Basic

/-!
# Laying out a tree in tables

The nodes of a tree are laid out from left to right. A text or name goes to the end of the string
when its node is complete, a call's name therefore after everything in its arguments; a sequence
goes to the end of the table of nodes when all its nodes are laid out. So the argument sequences of
a call always lie before the sequence that contains the call, and every piece is contiguous.
-/

namespace TagTemplate

namespace Arena

/-- Adds a text at the end of the string. -/
def pushText (a : Arena) (text : String) : Range × Arena :=
  (⟨a.text.utf8ByteSize, text.utf8ByteSize⟩, { a with text := a.text ++ text })

/-- Adds a sequence at the end of the table of nodes. -/
def pushCells (a : Arena) (cells : List Cell) : Range × Arena :=
  (⟨a.cells.size, cells.length⟩, { a with cells := a.cells ++ cells })

/-- Adds the sequences of a call's arguments at the end of their table. -/
def pushArgs (a : Arena) (args : List Range) : Range × Arena :=
  (⟨a.args.size, args.length⟩, { a with args := a.args ++ args })

end Arena

mutual

/-- Lays out what belongs to a node and gives its cell. -/
def Node.layout (a : Arena) : Node → Cell × Arena
  | .literal text span =>
    let (text, a) := a.pushText text
    (.literal text span, a)
  | .field name span =>
    let (name, a) := a.pushText name
    (.field name span, a)
  | .call name args span =>
    let (ranges, a) := Node.layoutArgs a args
    let (args, a) := a.pushArgs ranges
    let (name, a) := a.pushText name
    (.call name args span, a)

/-- Lays out what belongs to the nodes of a sequence and gives their cells. -/
def Node.layoutSeq (a : Arena) : List Node → List Cell × Arena
  | [] => ([], a)
  | n :: ns =>
    let (cell, a) := n.layout a
    let (cells, a) := Node.layoutSeq a ns
    (cell :: cells, a)

/-- Lays out the sequences of a call's arguments and gives their places. -/
def Node.layoutArgs (a : Arena) : List (List Node) → List Range × Arena
  | [] => ([], a)
  | s :: ss =>
    let (cells, a) := Node.layoutSeq a s
    let (range, a) := a.pushCells cells
    let (ranges, a) := Node.layoutArgs a ss
    (range :: ranges, a)

end

/-- The template of a sequence of nodes. -/
def Template.ofNodes (nodes : List Node) : Template :=
  let (cells, a) := Node.layoutSeq {} nodes
  let (root, a) := a.pushCells cells
  { a with root }

end TagTemplate
