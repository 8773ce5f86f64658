import TagTemplate.Arity
import TagTemplate.Span
import TagTemplate.Text.Quoted

/-!
# Evaluation errors

What can go wrong while a template is evaluated. A lenient evaluation records an anomaly and goes
on; a strict one ends with it. An error points at the node at fault and may carry the text of an
error that caused it.
-/

namespace TagTemplate

/-- The kinds of anomalies that a caller can tell apart. -/
inductive AnomalyKind
  | unknownFunction
  | arityMismatch
  | typeMismatch
  | recursionLimit
  | functionError
deriving DecidableEq

/-- What went wrong. -/
inductive Anomaly
  /-- No function has the name of the call. -/
  | unknownFunction (name : String)
  /-- The function does not accept that many operands. -/
  | arityMismatch (name : String) (arity : Arity) (got : Nat)
  /-- The text of an operand is not of the kind that its function needs. -/
  | typeMismatch (expected got : String)
  /-- The value of a field has no text form. -/
  | fieldWithoutText (field typeName : String)
  /-- The call stands inside as many calls as the limit admits. -/
  | callsTooDeep (limit : Nat)
  /-- The function failed in a way of its own. -/
  | functionFailed (name message : String)
  /-- The function reported an anomaly of any kind, in words of its own. -/
  | reported (kind : AnomalyKind) (message : String)
deriving DecidableEq

namespace Anomaly

/-- The kind of an anomaly. A field without text form counts as a mismatch of types. -/
def kind : Anomaly → AnomalyKind
  | unknownFunction _ => .unknownFunction
  | arityMismatch _ _ _ => .arityMismatch
  | typeMismatch _ _ => .typeMismatch
  | fieldWithoutText _ _ => .typeMismatch
  | callsTooDeep _ => .recursionLimit
  | functionFailed _ _ => .functionError
  | reported kind _ => kind

/-- The anomaly in words. -/
def message : Anomaly → String
  | unknownFunction name => "unknown function: " ++ name
  | arityMismatch name arity got =>
    name ++ " expects " ++ arity.text ++ " argument(s), got " ++ got.repr
  | typeMismatch expected got => "expected " ++ expected ++ ", got " ++ Text.quoted got
  | fieldWithoutText field typeName =>
    "field " ++ field ++ " holds a " ++ typeName ++ " with no text form"
  | callsTooDeep limit => "calls nested deeper than " ++ limit.repr ++ " levels"
  | functionFailed name message => name ++ ": " ++ message
  | reported _ message => message

end Anomaly

/-- An anomaly, the source text of the node at fault, and the text of an underlying error. -/
structure EvalError where
  anomaly : Anomaly
  span : Option Span := none
  cause : Option String := none
deriving DecidableEq

namespace EvalError

/-- The kind of the anomaly. -/
def kind (e : EvalError) : AnomalyKind :=
  e.anomaly.kind

/-- The error in words. -/
def message (e : EvalError) : String :=
  e.anomaly.message

/-- Points an error at a node, unless it points somewhere already. -/
def locate (e : EvalError) (span : Span) : EvalError :=
  { e with span := some (e.span.getD span) }

end EvalError

end TagTemplate
