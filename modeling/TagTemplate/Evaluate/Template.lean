import TagTemplate.Evaluate.Context

/-!
# Evaluating templates

A template is evaluated over its tables, from left to right, and the texts of its nodes are put one
after the other. The operands of a call are the sequences of its arguments; each is evaluated when
the function asks for it.
-/

namespace TagTemplate

namespace Arena

/-- The text of a sequence of cells, where `call` gives the outcome of a call. -/
def evalCells (a : Arena) (ctx : EvalContext) (call : String → Range → Span → Run String) :
    List Cell → Run String
  | [] => pure ""
  | cell :: cells => do
    let text ←
      match cell with
      | .literal text _ => pure (a.textOf text)
      | .field name span => ctx.fieldText (a.textOf name) span
      | .call name args span =>
        let name := a.textOf name
        ctx.callText name (call name args span)
    let rest ← a.evalCells ctx call cells
    pure (text ++ rest)

/-- The text of a sequence, where at most `levels` more calls may stand around each other. -/
def evalSeq (a : Arena) (ctx : EvalContext) : Nat → Range → Run String
  | 0, seq => a.evalCells ctx (fun _ _ span => ctx.tooDeep span) (a.cellsOf seq)
  | levels + 1, seq =>
    let call (name : String) (args : Range) (span : Span) : Run String :=
      let operands := a.argsOf args
      ctx.dispatch name span operands.length fun i =>
        match operands[i]? with
        | some operand => a.evalSeq ctx levels operand
        | none => pure ""
    a.evalCells ctx call (a.cellsOf seq)

end Arena

/-- Evaluates a template. -/
def Template.evaluate (t : Template) (ctx : EvalContext) : Run String :=
  t.evalSeq ctx ctx.options.maxDepth t.root

/-- Compiles a source text and evaluates it with the builtin functions, leniently. -/
def render (source : String) (record : Record) : Except CompileError (Run String) :=
  (compile source).map fun t => t.evaluate { record }

end TagTemplate
