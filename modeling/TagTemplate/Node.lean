import TagTemplate.Span

/-!
# The tree of a template

A template is a sequence of nodes: literal text, references to fields, and calls whose arguments are
sequences again. Every node keeps the span of source text it was read from.
-/

namespace TagTemplate

/-- A piece of a template. -/
inductive Node
  /-- Text that stands for itself, escapes resolved. -/
  | literal (text : String) (span : Span)
  /-- The value of a field of the record. -/
  | field (name : String) (span : Span)
  /-- The result of a function on arguments that are sequences of nodes. -/
  | call (name : String) (args : List (List Node)) (span : Span)

/-- The source text a node was read from. -/
def Node.span : Node → Span
  | literal _ span | field _ span | call _ _ span => span

end TagTemplate
