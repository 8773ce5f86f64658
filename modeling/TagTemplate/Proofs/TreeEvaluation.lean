import TagTemplate.Evaluate.Template
import TagTemplate.Proofs.Layout

/-!
# Evaluating trees

Evaluation as a recursion over the tree of a template. Tables that hold a tree are evaluated as the
tree is (`Arena.evalSeq_eq`), and so is the template of a tree (`Template.evaluate_ofNodes`). The
text of a sequence does not depend on how its literals are cut (`Node.evalSeq_join`).
-/

namespace TagTemplate

mutual

/-- The text of a node, where at most `levels` more calls may stand around each other. -/
def Node.eval (ctx : EvalContext) : Node → Nat → Run String
  | .literal text _, _ => pure text
  | .field name span, _ => ctx.fieldText name span
  | .call name _ span, 0 => ctx.callText name (ctx.tooDeep span)
  | .call name args span, levels + 1 =>
    ctx.callText name (ctx.dispatch name span args.length (Node.evalArgs ctx args levels))

/-- The text of a sequence. -/
def Node.evalSeq (ctx : EvalContext) : List Node → Nat → Run String
  | [], _ => pure ""
  | n :: ns, levels => do
    let text ← n.eval ctx levels
    let rest ← Node.evalSeq ctx ns levels
    pure (text ++ rest)

/-- The text of an operand, empty if there are not so many. -/
def Node.evalArgs (ctx : EvalContext) : List (List Node) → Nat → Nat → Run String
  | [], _, _ => pure ""
  | a :: _, levels, 0 => Node.evalSeq ctx a levels
  | _ :: as, levels, i + 1 => Node.evalArgs ctx as levels i

end

/-- An operand is the sequence of an argument, or empty where there are not so many. -/
theorem Node.evalArgs_eq (ctx : EvalContext) (args : List (List Node)) (levels i : Nat) :
    Node.evalArgs ctx args levels i =
      match args[i]? with
      | some a => Node.evalSeq ctx a levels
      | none => pure "" := by
  induction args generalizing i with
  | nil => rfl
  | cons a as ih =>
    cases i with
    | zero => rfl
    | succ i => exact ih i

namespace Arena

variable {a : Arena} {ctx : EvalContext}

/-- A sequence of cells gives the text of the nodes it holds if its calls do. -/
theorem evalCells_eq {call : String → Range → Span → Run String} {levels : Nat}
    (hcall : ∀ {name args span r ranges}, r.Cuts a.args.toList ranges →
      Node.StoredArgs a args ranges →
      ctx.callText name (call name r span) = (Node.call name args span).eval ctx levels)
    {ns : List Node} {cells : List Cell} (h : Node.StoredSeq a ns cells) :
    a.evalCells ctx call cells = Node.evalSeq ctx ns levels := by
  induction ns generalizing cells with
  | nil =>
    cases h
    rfl
  | cons n ns ih =>
    cases h with
    | cons head tail =>
      rw [Node.evalSeq, ← ih tail]
      cases head with
      | literal htext =>
        rw [evalCells, textOf, htext.extract_eq]
        rfl
      | field hname =>
        rw [evalCells, textOf, hname.extract_eq]
        rfl
      | call hname hranges hargs =>
        rw [evalCells, textOf, hname.extract_eq, ← hcall hranges hargs]

/-- The operands of a call are the arguments it holds. -/
theorem evalOperand_eq {levels : Nat}
    (hseq : ∀ {r cells ns}, r.Cuts a.cells.toList cells → Node.StoredSeq a ns cells →
      a.evalSeq ctx levels r = Node.evalSeq ctx ns levels)
    {args : List (List Node)} {ranges : List Range} (h : Node.StoredArgs a args ranges) (i : Nat) :
    (match ranges[i]? with
      | some operand => a.evalSeq ctx levels operand
      | none => pure "") = Node.evalArgs ctx args levels i := by
  induction args generalizing ranges i with
  | nil =>
    cases h
    rfl
  | cons s ss ih =>
    cases h with
    | cons hcells head tail =>
      cases i with
      | zero => exact hseq hcells head
      | succ i => exact ih tail i

/-- Tables that hold a sequence are evaluated as the sequence is. -/
theorem evalSeq_eq {r : Range} {cells : List Cell} {ns : List Node}
    (hcells : r.Cuts a.cells.toList cells) (h : Node.StoredSeq a ns cells) (levels : Nat) :
    a.evalSeq ctx levels r = Node.evalSeq ctx ns levels := by
  induction levels generalizing r cells ns with
  | zero =>
    rw [evalSeq, cellsOf, hcells.extract_eq]
    exact evalCells_eq (fun _ _ => rfl) h
  | succ levels ih =>
    rw [evalSeq, cellsOf, hcells.extract_eq]
    refine evalCells_eq (fun hranges hargs => ?_) h
    have hoperand := funext (evalOperand_eq ih hargs)
    rw [argsOf, hranges.extract_eq, Node.eval, ← hargs.length_eq]
    exact congrArg (fun operand => ctx.callText _ (ctx.dispatch _ _ _ operand)) hoperand

end Arena

/-- A template is evaluated as its tree is. -/
theorem Template.evaluate_ofNodes (ns : List Node) (ctx : EvalContext) :
    (Template.ofNodes ns).evaluate ctx = Node.evalSeq ctx ns ctx.options.maxDepth := by
  obtain ⟨cells, hcells, hstored⟩ := stored_ofNodes ns
  exact Arena.evalSeq_eq hcells hstored _

namespace Node

/-- Literals that merge give the same text as before. -/
theorem evalSeq_join (ctx : EvalContext) (n : Node) (ns : List Node) (levels : Nat) :
    evalSeq ctx (join n ns) levels = evalSeq ctx (n :: ns) levels := by
  cases n with
  | field | call => rfl
  | literal s i =>
    rcases ns with _ | ⟨m, ns⟩
    · rfl
    · cases m with
      | field | call => rfl
      | literal t j =>
        simp only [join_literal_literal, evalSeq, eval, pure_bind, bind_assoc, String.append_assoc]

/-- A sequence in front of another is evaluated first. -/
theorem evalSeq_append (ctx : EvalContext) (ns ms : List Node) (levels : Nat) :
    evalSeq ctx (ns ++ ms) levels =
      evalSeq ctx ns levels >>= fun text =>
        evalSeq ctx ms levels >>= fun rest => pure (text ++ rest) := by
  induction ns with
  | nil => simp only [List.nil_append, evalSeq, pure_bind, String.empty_append, bind_pure]
  | cons n ns ih =>
    rw [List.cons_append, evalSeq, ih, evalSeq]
    simp only [bind_assoc, pure_bind, String.append_assoc]

/-- The same holds where literals that meet become one. -/
theorem evalSeq_joinSeq (ctx : EvalContext) (ns ms : List Node) (levels : Nat) :
    evalSeq ctx (joinSeq ns ms) levels =
      evalSeq ctx ns levels >>= fun text =>
        evalSeq ctx ms levels >>= fun rest => pure (text ++ rest) := by
  rw [← evalSeq_append]
  induction ns with
  | nil => rw [joinSeq_nil_left, List.nil_append]
  | cons n ns ih => rw [joinSeq_cons, evalSeq_join, evalSeq, ih, List.cons_append, evalSeq]

end Node

end TagTemplate
