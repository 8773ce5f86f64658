import TagTemplate.Compile
import TagTemplate.Evaluate.Run
import TagTemplate.Record
import TagTemplate.Registry

/-!
# The context of an evaluation

What the nodes of a template mean: the text of a field, and the outcome of a call. The rules here
speak of single nodes, wherever these are kept; `TagTemplate.Evaluate.Template` applies them to the
tables of a template.

An evaluation is lenient or strict. A lenient one takes empty text in place of a field or call that
goes wrong, notes the degradation and goes on; a strict one ends. A field that the record lacks is
empty text in both and no anomaly.
-/

namespace TagTemplate

/-- How to evaluate. -/
structure EvalOptions where
  /-- Does the first anomaly end the evaluation? -/
  strict : Bool := false
  /-- The greatest number of calls around each other that are followed. -/
  maxDepth : Nat := defaultMaxDepth
deriving DecidableEq

/-- Everything a template is evaluated against. -/
structure EvalContext where
  record : Record
  registry : Registry := .builtins
  options : EvalOptions := {}

namespace EvalContext

/-- The text of a field. -/
def fieldText (ctx : EvalContext) (name : String) (span : Span) : Run String := do
  Run.emit (.lookup name)
  match ctx.record name with
  | none => pure ""
  | some value =>
    match value.text? with
    | some text => pure text
    | none =>
      if ctx.options.strict then
        Run.fail { anomaly := .fieldWithoutText name value.typeName, span }
      else do
        Run.emit (.fieldDegraded name)
        pure ""

/-- The outcome of a call within the limit on calls around each other: the function is resolved, and
its body is run on the operands. An error that points nowhere is pointed at the call. -/
def dispatch (ctx : EvalContext) (name : String) (span : Span) (count : Nat)
    (operand : Nat → Run String) : Run String :=
  match ctx.registry.resolve name count with
  | .error anomaly => Run.fail { anomaly, span }
  | .ok f => (Run.ofBody operand (.call f.name count) (f.body count)).locate span

/-- The outcome of a call beyond the limit. -/
def tooDeep (ctx : EvalContext) (span : Span) : Run String :=
  Run.fail { anomaly := .callsTooDeep ctx.options.maxDepth, span }

/-- The text of a call, given its outcome. -/
def callText (ctx : EvalContext) (name : String) (outcome : Run String) : Run String :=
  match outcome.result with
  | .ok _ => outcome
  | .error e =>
    if ctx.options.strict then outcome
    else ⟨outcome.events ++ [.callDegraded name e.message], .ok ""⟩

end EvalContext

end TagTemplate
