import TagTemplate.Proofs.Grammar

/-!
# Source text that stands later

What is read from a text does not depend on where in a source the text stands, apart from the spans.
`Node.moveSeq` moves all spans of a tree, and `Piece.nodes_add` says that the tree of a text that
stands later is the tree of the text, moved. `CompileError.move` moves the span of an error.
-/

namespace TagTemplate

/-- The span `n` bytes later. -/
def Span.move (n : Nat) (s : Span) : Span :=
  ⟨s.start + n, s.stop + n⟩

/-! ## Trees -/

namespace Node

mutual

/-- The node with all its spans moved. -/
def move (n : Nat) : Node → Node
  | .literal text span => .literal text (span.move n)
  | .field name span => .field name (span.move n)
  | .call name args span => .call name (moveArgs n args) (span.move n)

/-- `move` over a sequence. -/
def moveSeq (n : Nat) : List Node → List Node
  | [] => []
  | m :: ms => m.move n :: moveSeq n ms

/-- `move` over the arguments of a call. -/
def moveArgs (n : Nat) : List (List Node) → List (List Node)
  | [] => []
  | a :: as => moveSeq n a :: moveArgs n as

end

/-- To move arguments leaves their number. -/
theorem length_moveArgs (n : Nat) (args : List (List Node)) :
    (moveArgs n args).length = args.length := by
  induction args with
  | nil => rfl
  | cons a as ih => rw [moveArgs, List.length_cons, ih, List.length_cons]

/-- Literals that meet become one before or after they are moved. -/
theorem moveSeq_join (n : Nat) (m : Node) (ms : List Node) :
    moveSeq n (join m ms) = join (m.move n) (moveSeq n ms) := by
  cases m with
  | field | call => simp [moveSeq, move]
  | literal s i =>
    rcases ms with _ | ⟨k, ms⟩
    · simp [moveSeq, move]
    · cases k <;> simp [moveSeq, move, Span.move]

end Node

namespace Piece

/-- The trees of arguments that stand later are moved if each of them is. -/
theorem nodesArgs_add {n : Nat} {args : List (List Piece)}
    (h : ∀ a ∈ args, ∀ pos, nodes (pos + n) a = Node.moveSeq n (nodes pos a)) (pos : Nat) :
    nodesArgs (pos + n) args = Node.moveArgs n (nodesArgs pos args) := by
  induction args generalizing pos with
  | nil => rfl
  | cons a as ih =>
    rw [nodesArgs, nodesArgs, Node.moveArgs, h a List.mem_cons_self, Nat.add_right_comm,
      ih fun b hb => h b (List.mem_cons_of_mem a hb)]

/-- The node of a piece that stands later is moved, if the trees of its arguments are. -/
theorem node_add {n : Nat} {p : Piece}
    (h : ∀ a ∈ p.args, ∀ pos, nodes (pos + n) a = Node.moveSeq n (nodes pos a)) (pos : Nat) :
    p.node (pos + n) = (p.node pos).move n := by
  cases p with
  | plain | escaped | field => simp only [node, Node.move, Span.move, Nat.add_right_comm]
  | call name args =>
    have hargs : nodesArgs (pos + n + (name.utf8ByteSize + 2)) args =
        Node.moveArgs n (nodesArgs (pos + (name.utf8ByteSize + 2)) args) := by
      rw [Nat.add_right_comm]
      exact nodesArgs_add h _
    rw [node, node, Node.move, hargs, Span.move, Nat.add_right_comm]

/-- The tree of a text that stands later is moved. -/
theorem nodes_add (n : Nat) (ps : List Piece) (pos : Nat) :
    nodes (pos + n) ps = Node.moveSeq n (nodes pos ps) := by
  induction ps using consInduction generalizing pos with
  | nil => rfl
  | cons p ps hargs ih =>
    rw [nodes, nodes, Node.moveSeq_join, node_add hargs, Nat.add_right_comm, ih]

end Piece

/-! ## Errors -/

namespace CompileError

/-- The same error `n` bytes later. -/
def move (n : Nat) (e : CompileError) : CompileError :=
  { e with span := e.span.move n }

/-- The error of an unterminated field moves with the percent sign. -/
theorem unterminatedField_move (n start : Nat) :
    (unterminatedField start).move n = unterminatedField (start + n) := by
  simp only [unterminatedField, move, Span.move, Span.single, Nat.add_right_comm]

/-- The error of an empty field name moves with the percent sign. -/
theorem emptyField_move (n start : Nat) : (emptyField start).move n = emptyField (start + n) := by
  simp only [emptyField, move, Span.move, Nat.add_right_comm]

/-- The error of an invalid character moves with the character. -/
theorem invalidIdentifier_move (n : Nat) (c : Char) (offset : Nat) :
    (invalidIdentifier c offset).move n = invalidIdentifier c (offset + n) := by
  simp only [invalidIdentifier, move, Span.move, Nat.add_right_comm]

/-- The error of an empty function name moves with the dollar sign. -/
theorem emptyCall_move (n start : Nat) : (emptyCall start).move n = emptyCall (start + n) := by
  simp only [emptyCall, move, Span.move, Span.single, Nat.add_right_comm]

/-- The error of a dangling escape moves with the backslash. -/
theorem danglingEscape_move (n start : Nat) :
    (danglingEscape start).move n = danglingEscape (start + n) := by
  simp only [danglingEscape, move, Span.move, Span.single, Nat.add_right_comm]

end CompileError

end TagTemplate
